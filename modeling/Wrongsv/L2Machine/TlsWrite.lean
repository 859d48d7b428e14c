import Wrongsv.Core

/-!
# The writing side of a TLS connection, and the bridge for HTTP/2

`rustls` takes plaintext into a queue of wire bytes, as much as there is room for, and
`write_tls` gives the front of the queue to the socket. A wire byte is modelled by what its
arrival lets the client decrypt: a record's plaintext is with the record's last byte.

`tls_relay` copies the blocks of a local socket to such a connection, whose socket does not
block. Left out are its other direction and errors of the socket other than `WouldBlock`.

Results: `flush_spec`, `flush_flushed`, `writeAll_eq`, `tlsRelay_spec`,
`tlsRelay_lossless`, `tlsRelay_wouldBlock`.
-/
namespace Wrongsv.L2.TlsWrite
open List

/-! ## Records -/

/-- Wire bytes up to the last byte of a record. -/
structure Wire where
  val : List Bytes
  last : ∀ u, val.getLast? = some u → u ≠ []
  deriving DecidableEq, Repr

namespace Wire

/-- What the client decrypts when all of it has arrived. -/
def plaintext (w : Wire) : Bytes := w.val.flatten

def empty : Wire := ⟨[], fun _ h => nomatch h⟩

def append (w v : Wire) : Wire := ⟨w.val ++ v.val, fun u hu => by
  rw [List.getLast?_append] at hu
  cases hv : v.val.getLast? with
  | none =>
    rw [hv] at hu
    exact w.last u hu
  | some x =>
    rw [hv] at hu
    exact v.last u (hv.trans hu)⟩

def drop (n : Nat) (w : Wire) : Wire := ⟨w.val.drop n, fun u hu => by
  rw [List.getLast?_drop] at hu
  split at hu
  · cases hu
  · exact w.last u hu⟩

theorem plaintext_append (w v : Wire) : (w.append v).plaintext = w.plaintext ++ v.plaintext :=
  flatten_append

theorem plaintext_eq_nil {w : Wire} : w.plaintext = [] ↔ w.val = [] := by
  refine ⟨fun h => ?_, fun h => by rw [plaintext, h]; rfl⟩
  cases hlast : w.val.getLast? with
  | none => exact List.getLast?_eq_none_iff.mp hlast
  | some u => exact absurd (List.flatten_eq_nil_iff.mp h u (List.mem_of_getLast? hlast)) (w.last u hlast)

end Wire

/-- How plaintext is made into records. -/
structure RecordLayer where
  encode : Bytes → Wire
  plaintext_encode : ∀ p, (encode p).plaintext = p

/-! ## The stream -/

inductive IoError where
  | wouldBlock
  | writeZero
  deriving DecidableEq, Repr

/-- One `write_tls`: the socket takes up to `n` bytes, or nothing for now. -/
inductive Push where
  | accepts (n : Nat)
  | wouldBlock
  deriving DecidableEq, Repr

/-- The connection, with what the client has decrypted so far. -/
structure Sender where
  received : Bytes
  queue : Wire
  deriving DecidableEq, Repr

def Sender.new : Sender := ⟨[], .empty⟩

def Sender.push (n : Nat) (s : Sender) : Sender :=
  ⟨s.received ++ (s.queue.val.take n).flatten, s.queue.drop n⟩

/-- All plaintext that rustls took. -/
def Sender.taken (s : Sender) : Bytes := s.received ++ s.queue.plaintext

/-- Behind the listed ones the socket takes everything.
anytls/lib.rs:169-177 -/
def flush (pushes : List Push) (s : Sender) : Except IoError Unit × Sender × List Push :=
  if s.queue.val = [] then (.ok (), s, pushes)
  else match pushes with
    | [] => (.ok (), s.push s.queue.val.length, [])
    | .wouldBlock :: pushes => (.error .wouldBlock, s, pushes)
    | .accepts n :: pushes => if n = 0 then (.ok (), s, pushes) else flush pushes (s.push n)

/-- rustls takes the first `k` bytes; their number is not looked at. -/
def write (layer : RecordLayer) (k : Nat) (buf : Bytes) (pushes : List Push) (s : Sender) :
    Except IoError Nat × Sender × List Push :=
  match flush pushes ⟨s.received, s.queue.append (layer.encode (buf.take k))⟩ with
  | (.error e, r) => (.error e, r)
  | (.ok (), r) => (.ok buf.length, r)

/-- The room in a queue with a limit. -/
def room (limit : Nat) (s : Sender) : Nat := limit - s.queue.val.length

/-- `Write::write_all` -/
def writeAll (layer : RecordLayer) (limit : Nat) (buf : Bytes) (pushes : List Push) (s : Sender) :
    Except IoError Unit × Sender × List Push :=
  if buf = [] then (.ok (), s, pushes)
  else match write layer (room limit s) buf pushes s with
    | (.error e, r) => (.error e, r)
    | (.ok n, s, pushes) =>
      if n = 0 then (.error .writeZero, s, pushes) else writeAll layer limit (buf.drop n) pushes s
termination_by buf.length
decreasing_by
  rename_i hbuf hn
  have hpos := List.length_pos_iff.mpr hbuf
  rw [length_drop]
  omega

/-! ## The bridge -/

/-- A read of the local socket. -/
abbrev Block := { b : Bytes // 0 < b.length ∧ b.length ≤ 65536 }

/-- How a relay ends: with an error of `write_all` or not, the connection, and
how many bytes of the blocks rustls did not take. -/
structure Relayed where
  failed : Bool
  sender : Sender
  refused : Nat
  deriving DecidableEq, Repr

/-- The connection is dropped at the end, with its queue.
server/handler/tls_relay.rs:74-87 -/
def tlsRelay (layer : RecordLayer) (limit : Nat) (blocks : List Block) (pushes : List Push) (s : Sender) : Relayed :=
  match blocks with
  | [] => ⟨false, s, 0⟩
  | b :: blocks =>
    match writeAll layer limit b.val pushes s with
    | (.error _, s', _) => ⟨true, s', b.val.length - room limit s⟩
    | (.ok (), s', pushes) =>
      let r := tlsRelay layer limit blocks pushes s'
      { r with refused := b.val.length - room limit s + r.refused }

/-! ## Flush -/

theorem taken_push (n : Nat) (s : Sender) : (s.push n).taken = s.taken := by
  show s.received ++ (s.queue.val.take n).flatten ++ (s.queue.val.drop n).flatten = _
  rw [append_assoc, ← flatten_append, take_append_drop]
  rfl

/-- **Flush** keeps what rustls took, and an error leaves plaintext in the queue. -/
theorem flush_spec (pushes : List Push) : ∀ {s s' : Sender} {r : Except IoError Unit}
    {pushes' : List Push}, flush pushes s = (r, s', pushes') →
    s'.taken = s.taken ∧ (∀ e, r = .error e → s'.queue.plaintext ≠ []) := by
  induction pushes with
  | nil => grind [flush, taken_push]
  | cons p pushes ih =>
    intro s s' r pushes' h
    unfold flush at h
    split at h
    · grind
    rename_i hqueue
    cases p with
    | wouldBlock =>
      cases h
      exact ⟨rfl, fun e _ hnil => hqueue (Wire.plaintext_eq_nil.mp hnil)⟩
    | accepts n => grind [taken_push]

/-- What the pushes make of a queue of `q` bytes: the bytes that are left and the
pushes behind; `none` if they end in a `WouldBlock`. -/
def flushed (q : Nat) : List Push → Option (Nat × List Push)
  | [] => some (0, [])
  | p :: pushes =>
    if q = 0 then some (0, p :: pushes)
    else match p with
      | .wouldBlock => none
      | .accepts n => if n = 0 then some (q, pushes) else flushed (q - n) pushes

/-- **Flush by numbers**: whether it fails depends on the length of the queue and the
pushes only. -/
theorem flush_flushed (pushes : List Push) : ∀ s : Sender,
    match flushed s.queue.val.length pushes with
    | none => ∃ s' rest, flush pushes s = (.error .wouldBlock, s', rest)
    | some (q, rest) => ∃ s', flush pushes s = (.ok (), s', rest) ∧ s'.queue.val.length = q := by
  induction pushes with
  | nil =>
    intro s
    by_cases hqueue : s.queue.val = []
    · exact ⟨s, by rw [flush, if_pos hqueue], by rw [hqueue]; rfl⟩
    · exact ⟨_, by rw [flush, if_neg hqueue], congrArg List.length (drop_length (l := s.queue.val))⟩
  | cons p pushes ih =>
    intro s
    by_cases hqueue : s.queue.val = []
    · have hzero : s.queue.val.length = 0 := by rw [hqueue]; rfl
      rw [flushed.eq_def]
      simp only [if_pos hzero]
      exact ⟨s, by rw [flush.eq_def, if_pos hqueue], hzero⟩
    have hne : s.queue.val.length ≠ 0 := fun h => hqueue (List.length_eq_zero_iff.mp h)
    rw [flushed.eq_def]
    simp only [if_neg hne]
    cases p with
    | wouldBlock => exact ⟨s, pushes, by rw [flush, if_neg hqueue]⟩
    | accepts n =>
      by_cases hn : n = 0
      · simp only [if_pos hn]
        exact ⟨s, by rw [flush, if_neg hqueue]; exact if_pos hn, rfl⟩
      · have h := ih (s.push n)
        have hflush : flush (.accepts n :: pushes) s = flush pushes (s.push n) := by
          rw [flush, if_neg hqueue]
          exact if_neg hn
        rw [show (s.push n).queue.val.length = s.queue.val.length - n from length_drop, ← hflush] at h
        simp only [if_neg hn]
        exact h

/-- A socket that always takes something. -/
def Willing (pushes : List Push) : Prop := ∀ p ∈ pushes, ∃ n, p = .accepts (n + 1)

theorem flushed_willing {pushes : List Push} (hw : Willing pushes) : ∀ q : Nat,
    ∃ rest, flushed q pushes = some (0, rest) ∧ Willing rest := by
  induction pushes with
  | nil => exact fun q => ⟨[], rfl, hw⟩
  | cons p pushes ih =>
    intro q
    obtain ⟨n, rfl⟩ := hw p mem_cons_self
    by_cases hq : q = 0
    · exact ⟨_, if_pos hq, hw⟩
    · obtain ⟨rest, hrest, hw'⟩ := ih (fun q hq => hw q (mem_cons_of_mem _ hq)) (q - (n + 1))
      exact ⟨rest, (if_neg hq).trans hrest, hw'⟩

/-! ## Write -/

variable {layer : RecordLayer} {limit : Nat}

/-- One `write` is all there is to `write_all`. -/
theorem writeAll_eq {buf : Bytes} (hbuf : buf ≠ []) (pushes : List Push) (s : Sender) :
    writeAll layer limit buf pushes s =
      flush pushes ⟨s.received, s.queue.append (layer.encode (buf.take (room limit s)))⟩ := by
  rw [writeAll, if_neg hbuf, write]
  split
  · rename_i r hwrite
    split at hwrite
    · rename_i hflush
      cases hwrite
      rw [hflush]
    · cases hwrite
  · rename_i n s' pushes' hwrite
    split at hwrite
    · cases hwrite
    rename_i hflush
    cases hwrite
    rw [hflush, if_neg (fun hlen => hbuf (List.length_eq_zero_iff.mp hlen)), drop_length, writeAll, if_pos rfl]

/-- `write_all` adds the bytes rustls has room for, also when it fails. -/
theorem writeAll_spec {buf : Bytes} (hbuf : buf ≠ []) {pushes pushes' : List Push} {s s' : Sender}
    {r : Except IoError Unit} (h : writeAll layer limit buf pushes s = (r, s', pushes')) :
    s'.taken = s.taken ++ buf.take (room limit s) ∧ (∀ e, r = .error e → s'.queue.plaintext ≠ []) := by
  rw [writeAll_eq hbuf] at h
  obtain ⟨htaken, herr⟩ := flush_spec pushes h
  refine ⟨?_, herr⟩
  rw [htaken, Sender.taken, Wire.plaintext_append, layer.plaintext_encode, ← append_assoc]
  rfl

/-! ## Relay -/

theorem Block.ne_nil (b : Block) : b.val ≠ [] := List.length_pos_iff.mp b.property.1

/-- The bytes of the blocks that are in no queue and not received were refused, or the
relay failed before it read them. Without an error and with room for each block,
everything was taken. -/
theorem tlsRelay_spec (blocks : List Block) : ∀ {pushes : List Push} {s : Sender},
    let r := tlsRelay layer limit blocks pushes s
    r.sender.taken.length + r.refused ≤ s.taken.length + (blocks.map Subtype.val).flatten.length ∧
      (r.failed = true → r.sender.queue.plaintext ≠ []) ∧
      (r.failed = false → r.refused = 0 → r.sender.taken = s.taken ++ (blocks.map Subtype.val).flatten) := by
  induction blocks with
  | nil =>
    exact ⟨Nat.le_refl _, (fun h => nomatch h), fun _ _ => (append_nil _).symm⟩
  | cons b blocks ih =>
    intro pushes s
    unfold tlsRelay
    cases hw : writeAll layer limit b.val pushes s with
    | mk res q =>
      obtain ⟨s', pushes'⟩ := q
      obtain ⟨htaken, herr⟩ := writeAll_spec (Block.ne_nil b) hw
      have hlen : s'.taken.length = s.taken.length + min (room limit s) b.val.length := by
        rw [htaken, length_append, length_take]
      simp only [map_cons, flatten_cons, length_append]
      cases res with
      | error e =>
        refine ⟨?_, fun _ => herr e rfl, fun hfailed => nomatch hfailed⟩
        simp only
        omega
      | ok u =>
        obtain ⟨hle, hfailed, hcontent⟩ := @ih pushes' s'
        refine ⟨?_, hfailed, fun hok hrefused => ?_⟩ <;> simp only at *
        · omega
        · have hroom : b.val.length ≤ room limit s := by omega
          rw [hcontent hok (by omega), htaken, take_of_length_le hroom, append_assoc]

/-- The blocks go through, by numbers: each has room behind the `q` bytes that wait, no
flush meets a `WouldBlock`, and the last one leaves nothing. -/
def Lossless (layer : RecordLayer) (limit : Nat) (q : Nat) : List Block → List Push → Prop
  | [], _ => q = 0
  | b :: blocks, pushes => b.val.length ≤ limit - q ∧
      ∃ left rest, flushed (q + (layer.encode b.val).val.length) pushes = some (left, rest) ∧
        Lossless layer limit left blocks rest

theorem lossless_willing (blocks : List Block) (hlimit : ∀ b ∈ blocks, b.val.length ≤ limit) :
    ∀ {pushes : List Push}, Willing pushes → Lossless layer limit 0 blocks pushes := by
  induction blocks with
  | nil => exact fun _ => rfl
  | cons b blocks ih =>
    intro pushes hw
    obtain ⟨rest, hrest, hw'⟩ := flushed_willing hw (0 + (layer.encode b.val).val.length)
    exact ⟨hlimit b mem_cons_self, 0, rest, hrest, ih (fun c hc => hlimit c (mem_cons_of_mem _ hc)) hw'⟩

/-- **The relay by numbers.** -/
theorem tlsRelay_lossless (blocks : List Block) : ∀ (pushes : List Push) (s : Sender),
    let r := tlsRelay layer limit blocks pushes s
    (r.failed = false ∧ r.refused = 0 ∧ r.sender.queue.val = []) ↔
      Lossless layer limit s.queue.val.length blocks pushes := by
  induction blocks with
  | nil =>
    intro pushes s
    simp only [tlsRelay, Lossless, true_and, List.length_eq_zero_iff]
  | cons b blocks ih =>
    intro pushes s
    have hflush := flush_flushed pushes ⟨s.received, s.queue.append (layer.encode (b.val.take (room limit s)))⟩
    rw [show (s.queue.append (layer.encode (b.val.take (room limit s)))).val.length = s.queue.val.length +
      (layer.encode (b.val.take (room limit s))).val.length from length_append, ← writeAll_eq (Block.ne_nil b)] at hflush
    simp only [tlsRelay, Lossless]
    by_cases hroom : b.val.length ≤ room limit s
    · rw [take_of_length_le hroom] at hflush
      have hzero : b.val.length - room limit s = 0 := Nat.sub_eq_zero_of_le hroom
      cases hf : flushed (s.queue.val.length + (layer.encode b.val).val.length) pushes with
      | none =>
        rw [hf] at hflush
        obtain ⟨s', rest, hw⟩ := hflush
        rw [hw]
        simp
      | some q =>
        obtain ⟨left, rest⟩ := q
        rw [hf] at hflush
        obtain ⟨s', hw, rfl⟩ := hflush
        have hrest : _ ↔ Lossless layer limit s'.queue.val.length blocks rest := ih rest s'
        rw [hw]
        simp only [hzero, Nat.zero_add, Option.some.injEq, Prod.mk.injEq]
        rw [hrest]
        exact ⟨fun h => ⟨hroom, _, rest, ⟨rfl, rfl⟩, h⟩, fun ⟨_, _, _, ⟨hl, hr⟩, h⟩ => hl ▸ hr ▸ h⟩
    · refine iff_of_false ?_ fun h => hroom h.1
      rintro ⟨-, hrefused, -⟩
      revert hrefused
      split
      · simp only
        omega
      · simp only
        omega

/-- A full socket ends the relay at the next block, with nothing of it sent. -/
theorem tlsRelay_wouldBlock (hlimit : 0 < limit) (b : Block) (blocks : List Block)
    (pushes : List Push) (s : Sender) :
    let r := tlsRelay layer limit (b :: blocks) (.wouldBlock :: pushes) s
    r.failed = true ∧ r.sender.received = s.received := by
  -- something is in the queue: from before, or of this block
  have hqueue : (s.queue.append (layer.encode (b.val.take (room limit s)))).val ≠ [] := by
    intro hnil
    have hplain := Wire.plaintext_eq_nil.mpr hnil
    rw [Wire.plaintext_append, layer.plaintext_encode] at hplain
    obtain ⟨hbefore, htake⟩ := List.append_eq_nil_iff.mp hplain
    have hroom : room limit s = limit := by rw [room, Wire.plaintext_eq_nil.mp hbefore]; rfl
    grind [Block.ne_nil, take_eq_nil_iff]
  grind [tlsRelay, writeAll_eq, Block.ne_nil, flush]

end Wrongsv.L2.TlsWrite
