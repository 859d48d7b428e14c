import Wrongsv.L1Encoding.TuicCommand

/-!
# TUIC: a packet that is cut within its address

`try_parse_tuic_command` is called again after each read until it returns a command
(server/handler/tuic.rs:726-747). When the bytes end within the address of a packet, the
address parser answers "no address" (:921-966), as for type 255, and the packet parser goes
on: if the bytes behind the cursor cover the size of the packet (:820), they are its
payload. So a packet for 127.0.0.1:80 with one byte of payload whose first read ends one
byte into the address is a packet without an address and with the payload 127. A command
of more than 64 KiB is refused (:742).

Fix: let the address parser say that it needs more bytes.
-/
namespace Wrongsv.Bugs.TuicShortAddress
open L1.VlessHeader L1.Tuic List

/-- What the reads of a stream return that carries `c`. -/
structure Reads (c : Bytes) (reads : List Bytes) : Prop where
  whole : reads.flatten = c
  sizes : ∀ r ∈ reads, 1 ≤ r.length ∧ r.length ≤ 4096

/-- The payload is as long as the address. -/
def Covered (cmd : TuicCommand) : Prop :=
  ∀ p a, cmd = .packet p → p.address = some a → a.body.length ≤ p.payload.length

/-- A packet that consists of its ids only. -/
def Bare (cmd : TuicCommand) : Prop := ∃ p, cmd = .packet p ∧ p.address = none ∧ p.payload = []

/-! ## Prefixes -/

section
variable {p : TuicPacket}

theorem misread_none (h : p.address = none) {k : Nat} (hm : Misread p k) : p.payload = [] := by
  obtain ⟨hhead, hcut, hcovered⟩ := hm
  grind [encodeTuicAddress, frontLength, length_singleton, length_eq_zero_iff]

theorem misread_some {a : TuicAddress} (h : p.address = some a) {k : Nat} (hm : Misread p k) :
    p.payload.length < a.body.length := by
  obtain ⟨hhead, hcut, hcovered⟩ := hm
  grind [body_length_pos, encodeTuicAddress_length, frontLength]

/-- One byte before the end of its address, a packet with a short payload is
misread. -/
theorem misread_of_short {a : TuicAddress} (h : p.address = some a) (hshort : p.payload.length < a.body.length) :
    Misread p (10 + (a.front.length + a.body.length - 1)) := by
  refine ⟨by omega, ?_, ?_⟩
  · rw [h, encodeTuicAddress_length]
    omega
  · rw [h]
    simp only [frontLength]
    omega

theorem misread_of_bare (h : p.address = none) (hempty : p.payload = []) : Misread p 10 := by
  refine ⟨Nat.le_refl _, ?_, ?_⟩
  · rw [h]
    decide
  · rw [hempty]
    simp

end

section
variable {cmd : TuicCommand}

theorem not_misread (hcovered : Covered cmd) (hbare : ¬ Bare cmd) {p : TuicPacket}
    (hp : cmd = .packet p) (k : Nat) : ¬ Misread p k := by
  intro hm
  cases ha : p.address with
  | none => exact hbare ⟨p, hp, ha, misread_none ha hm⟩
  | some a =>
    have hle := hcovered p a hp ha
    have hlt := misread_some ha hm
    omega

/-- The first bytes of a covered command are read as nothing, or as the command
itself when it is a bare packet. -/
theorem tryParse_take_covered (hcomplete : cmd.Complete) (hcovered : Covered cmd) {k : Nat}
    (hk : k < cmd.encode.length) :
    tryParseTuicCommand (cmd.encode.take k) = .ok none ∨
      ∃ n, tryParseTuicCommand (cmd.encode.take k) = .ok (some (cmd, n)) := by
  by_cases hm : ∃ p, cmd = .packet p ∧ Misread p k
  · obtain ⟨p, rfl, hm⟩ := hm
    right
    obtain ⟨payload, n, hlen, hparse⟩ := tryParse_misread hcomplete hm
    cases ha : p.address with
    | none =>
      have hempty := misread_none ha hm
      rw [hempty] at hlen
      refine ⟨n, ?_⟩
      rw [hparse, List.length_eq_zero_iff.mp hlen, ← ha, ← hempty]
    | some a =>
      have hle := hcovered p a rfl ha
      have hlt := misread_some ha hm
      omega
  all_goals grind [tryParse_take]

/-- A packet with a long address and a short payload is misread at some place, as a
packet without an address. -/
theorem exists_misread (hcomplete : cmd.Complete) (h : ¬ Covered cmd) : ∃ k other n,
    k < cmd.encode.length ∧ 1 ≤ k ∧ k ≤ 4096 ∧ cmd.encode.length ≤ k + 4096 ∧ other ≠ cmd ∧
      tryParseTuicCommand (cmd.encode.take k) = .ok (some (other, n)) := by
  simp only [Covered, not_forall, Nat.not_le] at h
  obtain ⟨p, a, rfl, ha, hshort⟩ := h
  have hfits : p.Fits := hcomplete
  obtain ⟨payload, n, -, hparse⟩ := tryParse_misread hfits (misread_of_short ha hshort)
  have hlen : (TuicCommand.packet p).encode.length = 10 + (a.front.length + a.body.length) + p.payload.length := by
    grind [TuicCommand.encode, head_length, encodeTuicAddress_length]
  have hfront := front_length_pos a
  have hbody := body_length_le (hfits.address a ha)
  grind

end

/-! ## Reads -/

section
variable {cmd : TuicCommand}

theorem read_covered (hcomplete : cmd.Complete) (hcovered : Covered cmd)
    (hsize : cmd.encode.length ≤ 64 * 1024) (reads : List Bytes) : ∀ buf, buf ++ reads.flatten =
    cmd.encode → (∀ r ∈ reads, 1 ≤ r.length) → readTuicCommand buf reads = .ok cmd := by
  induction reads with
  | nil => grind [tryParse_encode, readTuicCommand]
  | cons r reads ih =>
    grind [tryParse_take_covered, readTuicCommand, List.length, flatten_cons, length_append,
        take_left, append_assoc, mem_cons_of_mem]

/-- A command is returned for some first part of the stream, and that is not longer
than the limit. -/
theorem read_ok (reads : List Bytes) :
    ∀ {buf : Bytes}, buf.length ≤ 64 * 1024 → readTuicCommand buf reads = .ok cmd → ∃ k n, k ≤
      64 * 1024 ∧ tryParseTuicCommand ((buf ++ reads.flatten).take k) = .ok (some (cmd, n)) := by
  induction reads with
  | nil => grind [readTuicCommand, take_left]
  | cons r reads ih => grind [readTuicCommand, take_left]

theorem reads_bytes (c : Bytes) : Reads c (c.map fun b => [b]) := by
  constructor
  · induction c with
    | nil => rfl
    | cons b c ih => rw [map_cons, flatten_cons, ih]; rfl
  · simp

theorem size_of_read (hcomplete : cmd.Complete) (hcovered : Covered cmd)
    (h : ∀ reads, Reads cmd.encode reads → readTuicCommandHeader reads = .ok cmd) : cmd.encode.length ≤ 64 * 1024 := by
  by_contra hlong
  obtain ⟨k, n, hk, hparse⟩ := read_ok _ (Nat.zero_le _) (h _ (reads_bytes cmd.encode))
  rw [nil_append, (reads_bytes cmd.encode).whole] at hparse
  grind [Bare, TuicCommand.encode, head_length, encodeTuicAddress, tryParse_take, not_misread]

theorem covered_of_read (hcomplete : cmd.Complete)
    (h : ∀ reads, Reads cmd.encode reads → readTuicCommandHeader reads = .ok cmd) : Covered cmd := by
  by_contra hshort
  obtain ⟨k, other, n, hk, hpos, hle, hrest, hne, hparse⟩ := exists_misread hcomplete hshort
  have hreads : Reads cmd.encode [cmd.encode.take k, cmd.encode.drop k] := by
    refine ⟨by simp, fun r hr => ?_⟩
    grind
  grind [readTuicCommandHeader, readTuicCommand, tryParseTuicCommand]

end

/-! ## Extensions -/

/-- A command that stays the same when more bytes come is the one that was sent. -/
theorem extends_iff {buf : Bytes} {cmd : TuicCommand} {n : Nat} (h : tryParseTuicCommand buf = .ok (some (cmd, n)))
    (hconnect : ∀ address body, cmd ≠ .connect address body) :
    (∀ more, tryParseTuicCommand (buf ++ more) = .ok (some (cmd, n))) ↔ buf.take n = cmd.encode := by
  rcases tryParse_cases h hconnect with ⟨hcomplete, rfl, rest, rfl⟩ | ⟨p, rest, used, rfl, hnone, hread, hun, hbuf, rfl⟩
  · grind [tryParse_encode]
  · rw [hread.starts] at hbuf
    refine iff_of_false (fun hall => ?_) (fun htake => ?_)
    · -- with enough bytes the address is read or refused
      have hmore := hall (List.replicate 258 0)
      rw [hbuf, cons_append, cons_append, append_assoc, tryParse_head p hread.size] at hmore
      cases hparse : parseTuicAddress (rest ++ List.replicate 258 0) with
      | error e =>
        simp only [hparse] at hmore
        cases hmore
      | ok found =>
        obtain ⟨address, used'⟩ := found
        simp only [hparse] at hmore
        split at hmore
        · cases hmore
        simp only [Except.ok.injEq, Option.some.injEq, Prod.mk.injEq, TuicCommand.packet.injEq] at hmore
        obtain ⟨hp, hused⟩ := hmore
        have haddress : address = none := by rw [← hnone, ← hp]
        have heq : used' = used := by omega
        rw [haddress, heq] at hparse
        exact hun.more _ (Nat.le_of_eq List.length_replicate.symm) hparse
    · -- the type byte behind the ids is not that of "no address"
      have hrest : rest.take (used + p.payload.length) = tuicAddrNone :: p.payload := by
        rw [hbuf, TuicCommand.encode, hnone] at htake
        have hcount : 10 + used + p.payload.length = 2 + (p.head.length + (used + p.payload.length)) := by
          rw [head_length]
          omega
        rw [hcount, Nat.add_comm 2, take_succ_cons, take_succ_cons, take_length_add_append] at htake
        simpa [encodeTuicAddress] using htake
      refine hun.noType ?_
      cases rest with
      | nil => simp at hrest
      | cons t rest =>
        have hpos : used + p.payload.length = used + p.payload.length - 1 + 1 := by
          grind [length_take]
        rw [hpos, take_succ_cons] at hrest
        exact congrArg some (List.cons.inj hrest).1

/-! ## Result -/

/-- **Commands and cuts.** A command is read as it was sent however its stream is
cut, if and only if it has at most 64 KiB and its payload covers its address; its
first bytes are never taken for a command, if and only if moreover it is not a bare
packet. What is returned for some bytes is also returned when more bytes follow, if
and only if the bytes are those of the command. -/
theorem commands_read_iff (cmd : TuicCommand) (hcomplete : cmd.Complete) :
    ((∀ reads, Reads cmd.encode reads → readTuicCommandHeader reads = .ok cmd) ↔
      cmd.encode.length ≤ 64 * 1024 ∧ Covered cmd) ∧
    ((∀ k < cmd.encode.length, tryParseTuicCommand (cmd.encode.take k) = .ok none) ↔ Covered cmd ∧ ¬ Bare cmd) ∧
    ∀ buf cmd n, tryParseTuicCommand buf = .ok (some (cmd, n)) → (∀ address body, cmd ≠ .connect address body) →
      ((∀ more, tryParseTuicCommand (buf ++ more) = .ok (some (cmd, n))) ↔ buf.take n = cmd.encode) := by
  refine ⟨⟨fun h => ?_, ?_⟩, ⟨fun h => ?_, ?_⟩, fun buf cmd n h hconnect => extends_iff h hconnect⟩
  · have hcovered := covered_of_read hcomplete h
    exact ⟨size_of_read hcomplete hcovered h, hcovered⟩
  · rintro ⟨hsize, hcovered⟩ reads hreads
    exact read_covered hcomplete hcovered hsize reads [] hreads.whole fun r hr => (hreads.sizes r hr).1
  · constructor
    · by_contra hshort
      obtain ⟨k, other, n, hk, -, -, -, -, hparse⟩ := exists_misread hcomplete hshort
      cases (h k hk).symm.trans hparse
    · rintro ⟨p, rfl, ha, hempty⟩
      obtain ⟨payload, n, -, hparse⟩ := tryParse_misread hcomplete (misread_of_bare ha hempty)
      have hk : 10 < (TuicCommand.packet p).encode.length := by
        simp [TuicCommand.encode, head_length, ha, hempty, encodeTuicAddress]
      cases (h 10 hk).symm.trans hparse
  · rintro ⟨hcovered, hbare⟩ k hk
    exact tryParse_take hcomplete hk fun p hp => not_misread hcovered hbare hp k

/-- One fragment for 127.0.0.1:80. -/
def packetTo (payload : Bytes) : TuicPacket := ⟨1, 1, 1, 0, some ⟨.loopback, 80⟩, payload⟩

theorem packetTo_complete {payload : Bytes} (h : payload.length < 65536) :
    (TuicCommand.packet (packetTo payload)).Complete :=
  ⟨fun _ ha => Option.some.inj ha ▸ trivial, h⟩

/-- Six bytes of payload cover the address of 127.0.0.1:80. -/
theorem covered_packet_is_read :
    (∀ reads, Reads (TuicCommand.packet (packetTo [1, 2, 3, 4, 5, 6])).encode reads →
      readTuicCommandHeader reads = .ok (.packet (packetTo [1, 2, 3, 4, 5, 6]))) ∧
    ∀ more, tryParseTuicCommand ((TuicCommand.packet (packetTo [97])).encode ++ more) =
      .ok (some (.packet (packetTo [97]), 18)) := by
  obtain ⟨hread, -, hextends⟩ := commands_read_iff (.packet (packetTo [1, 2, 3, 4, 5, 6])) (packetTo_complete (by decide))
  refine ⟨hread.mpr ⟨by decide, fun p a hp ha => ?_⟩, ?_⟩
  · cases hp
    cases ha
    decide
  · have hparse : tryParseTuicCommand (TuicCommand.packet (packetTo [97])).encode =
        .ok (some (.packet (packetTo [97]), 18)) := by decide
    refine (hextends _ _ _ hparse fun _ _ heq => TuicCommand.noConfusion heq).mpr ?_
    rfl

/-- One byte does not: if the first read ends behind 127, the packet has no address
and its payload is 127. -/
theorem short_packet_is_misread : (TuicCommand.packet (packetTo [97])).Complete ∧
      Reads (TuicCommand.packet (packetTo [97])).encode
        [[5, 2, 0, 1, 0, 1, 1, 0, 0, 1, 1, 127], [0, 0, 1, 0, 80, 97]] ∧
      readTuicCommandHeader [[5, 2, 0, 1, 0, 1, 1, 0, 0, 1, 1, 127], [0, 0, 1, 0, 80, 97]] =
        .ok (.packet ⟨1, 1, 1, 0, none, [127]⟩) := by
  refine ⟨packetTo_complete (by decide), ⟨by decide, fun r hr => ?_⟩, by decide⟩
  rcases List.mem_pair.mp hr with rfl | rfl <;> decide

end Wrongsv.Bugs.TuicShortAddress
