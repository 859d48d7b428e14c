import Wrongsv.Core

/-!
# Reads that may block

A stream with a read timeout delivers its bytes in stretches; between two
stretches a read finds nothing and reports `WouldBlock`. How the bytes of a
stretch are grouped into reads is not visible to `read_exact`, which asks
again until it has all it wants. So a schedule is the list of stretches.

`readExact` on a stretch that is too short loses it: the bytes are in the
buffer of a call that failed. `cuts` are the positions in the stream where
that can happen.
-/
namespace Wrongsv
open List

/-- The bytes before the next `WouldBlock`, and the stretches behind it. The
stream ends behind the last one. -/
structure Schedule where
  avail : Bytes
  later : List Bytes
  deriving DecidableEq, Repr

/-- A `read_exact`, with the bytes it has taken out of the stream. -/
inductive ReadExact where
  | done (bytes : Bytes)
  | block (got : Bytes)
  | eof (got : Bytes)
  deriving DecidableEq, Repr

namespace Schedule

def bytes (s : Schedule) : Bytes := s.avail ++ s.later.flatten

/-- Calls of `readExact` that can do something: each takes a byte or a `WouldBlock`. -/
def weight (s : Schedule) : Nat := s.bytes.length + s.later.length

def readExact (s : Schedule) (n : Nat) : ReadExact × Schedule :=
  if n ≤ s.avail.length then (.done (s.avail.take n), ⟨s.avail.drop n, s.later⟩)
  else
    match s.later with
    | [] => (.eof s.avail, ⟨[], []⟩)
    | next :: later => (.block s.avail, ⟨next, later⟩)

/-- The positions of the `WouldBlock`s, when the next one is at `k`. -/
def cutsFrom : Nat → List Bytes → List Nat
  | _, [] => []
  | k, next :: later => k :: cutsFrom (k + next.length) later

/-- The positions of the `WouldBlock`s in a stream that is at position `o`. -/
def cuts (s : Schedule) (o : Nat) : List Nat := cutsFrom (o + s.avail.length) s.later

section
variable {s : Schedule} {n : Nat}

/-- **Enough bytes.** No cut is passed. -/
theorem readExact_done (h : n ≤ s.avail.length) (o : Nat) :
    (s.readExact n).1 = .done (s.bytes.take n) ∧ (s.readExact n).2.bytes = s.bytes.drop n ∧
      (s.readExact n).2.later = s.later ∧ (s.readExact n).2.cuts (o + n) = s.cuts o := by
  obtain ⟨avail, later⟩ := s
  simp only at h
  simp only [readExact, if_pos h, bytes, take_append_of_le_length h, drop_append_of_le_length h,
    true_and, cuts, length_drop]
  congr 1
  omega

theorem readExact_append (a rest : Bytes) (later : List Bytes) :
    readExact ⟨a ++ rest, later⟩ a.length = (.done a, ⟨rest, later⟩) := by
  rw [readExact, if_pos (by simp), take_left, drop_left]

theorem bytes_of_readExact_done {s' : Schedule} {c : Bytes} (h : s.readExact n = (.done c, s')) :
    s.bytes = c ++ s'.bytes := by
  unfold readExact at h
  split at h
  · cases h
    rw [bytes, bytes, ← append_assoc, take_append_drop]
  · split at h <;> cases h

/-- **Too few bytes before a `WouldBlock`.** They are lost. -/
theorem readExact_block {next : Bytes} {later : List Bytes} (h : s.avail.length < n)
    (hl : s.later = next :: later) (o : Nat) :
    s.readExact n = (.block s.avail, ⟨next, later⟩) ∧
      s.cuts o = (o + s.avail.length) :: cuts ⟨next, later⟩ (o + s.avail.length) := by
  obtain ⟨avail, _⟩ := s
  cases hl
  exact ⟨by simp only [readExact, if_neg (Nat.not_le.mpr h)], rfl⟩

/-- A read of bytes that are there stops early only at a `WouldBlock`. -/
theorem later_ne_nil (hn : n ≤ s.bytes.length) (h : s.avail.length < n) :
    ∃ next later, s.later = next :: later := by
  cases hl : s.later with
  | nil =>
    rw [bytes, hl, flatten_nil, append_nil] at hn
    omega
  | cons next later => exact ⟨next, later, rfl⟩

theorem readExact_eof (h : s.avail.length < n) (hl : s.later = []) :
    s.readExact n = (.eof s.avail, ⟨[], []⟩) := by
  simp only [readExact, if_neg (Nat.not_le.mpr h), hl]

end

theorem le_of_mem_cutsFrom (later : List Bytes) : ∀ {k n : Nat}, n ∈ cutsFrom k later → k ≤ n := by
  induction later with
  | nil => intro k n h; cases h
  | cons next later ih =>
    intro k n h
    rcases List.mem_cons.mp h with rfl | h
    · exact Nat.le_refl _
    · exact Nat.le_trans (Nat.le_add_right _ _) (ih h)

theorem le_of_mem_cuts {s : Schedule} {o k : Nat} (h : k ∈ s.cuts o) : o + s.avail.length ≤ k :=
  le_of_mem_cutsFrom s.later h

/-! ## Reading a piece of the stream in one go -/

/-- `s'` is `s` behind its next `n` bytes, which no `WouldBlock` separates. -/
structure Passed (s s' : Schedule) (o n : Nat) : Prop where
  bytes : s'.bytes = s.bytes.drop n
  whole : ∀ k ∈ s.cuts o, ¬ (o < k ∧ k < o + n)
  cuts : ∀ k, o + n < k → (k ∈ s'.cuts (o + n) ↔ k ∈ s.cuts o)
  weight : s'.weight + n ≤ s.weight

theorem Passed.refl (s : Schedule) (o : Nat) : Passed s s o 0 :=
  ⟨rfl, fun _ _ h => by omega, fun _ _ => Iff.rfl, Nat.le_refl _⟩

theorem passed_readExact {s : Schedule} {n : Nat} (h : n ≤ s.avail.length) (o : Nat) :
    Passed s (s.readExact n).2 o n := by
  obtain ⟨-, hb, hl, hc⟩ := readExact_done h o
  refine ⟨hb, fun k hk hin => ?_, fun k _ => by rw [hc], ?_⟩
  · have := le_of_mem_cuts hk
    omega
  · have hle : n ≤ s.bytes.length := by
      rw [Schedule.bytes, length_append]
      omega
    rw [Schedule.weight, Schedule.weight, hb, hl, length_drop]
    omega

/-- A `WouldBlock` before the first byte does no harm. -/
theorem Passed.after_block {next : Bytes} {later : List Bytes} {s' : Schedule} {o n : Nat}
    (h : Passed ⟨next, later⟩ s' o n) : Passed ⟨[], next :: later⟩ s' o n := by
  have hcuts : Schedule.cuts ⟨[], next :: later⟩ o = o :: Schedule.cuts ⟨next, later⟩ o := rfl
  have hbytes : Schedule.bytes ⟨[], next :: later⟩ = Schedule.bytes ⟨next, later⟩ := rfl
  refine ⟨by rw [h.bytes, hbytes], fun k hk hin => ?_, fun k hk => ?_, ?_⟩
  · rw [hcuts] at hk
    rcases List.mem_cons.mp hk with rfl | hk
    · omega
    · exact h.whole k hk hin
  · rw [h.cuts k hk, hcuts, mem_cons]
    constructor
    · exact .inr
    · rintro (rfl | hk')
      · omega
      · exact hk'
  · have := h.weight
    rw [Schedule.weight, Schedule.weight] at this ⊢
    simp only [hbytes, length_cons] at this ⊢
    omega

end Schedule

/-! ## A caller that asks again -/

/-- The bytes that a caller gets, and how they end. -/
structure Collected (σ : Type) where
  bytes : Bytes
  stop : σ
  deriving DecidableEq, Repr

namespace Collected

variable {σ : Type}

def prepend (bytes : Bytes) (r : Collected σ) : Collected σ := { r with bytes := bytes ++ r.bytes }

theorem prepend_prepend (a b : Bytes) (r : Collected σ) :
    (r.prepend b).prepend a = r.prepend (a ++ b) := by
  simp only [prepend, List.append_assoc]

end Collected

end Wrongsv
