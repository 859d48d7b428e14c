import Wrongsv.Core

/-!
# A socket read in pieces

What a peer's bytes look like to successive reads: segments, errors between
them, and the end of the stream behind the last one. A `read` takes from the
first segment only, up to the size of its buffer; what does not fit is the next
read's. Every way a stream can be delivered to a sequence of reads is one such
list.

`read_exact` reads until its buffer is full. When it fails, the bytes it had
taken are gone from the socket (`readExact_error`).
-/
namespace Wrongsv
open List

inductive Arrival (ε : Type) where
  | segment (bytes : { c : Bytes // c ≠ [] })
  | failed (e : ε)
  deriving DecidableEq, Repr

abbrev Socket (ε : Type) := List (Arrival ε)

namespace Socket

variable {ε : Type}

/-- The bytes that are still to come. -/
def pending : Socket ε → Bytes
  | [] => []
  | .segment c :: s => c.val ++ pending s
  | .failed _ :: s => pending s

/-- The segment behind its first `k` bytes. -/
def rest (k : Nat) (c : { c : Bytes // c ≠ [] }) (s : Socket ε) : Socket ε :=
  if h : c.val.drop k ≠ [] then .segment ⟨c.val.drop k, h⟩ :: s else s

/-- `read` into a buffer of `k` bytes. -/
def read (k : Nat) : Socket ε → Except ε Bytes × Socket ε
  | [] => (.ok [], [])
  | .failed e :: s => (.error e, s)
  | .segment c :: s => (.ok (c.val.take k), rest k c s)

/-- `read_exact` of `k` bytes; `none` is the error for the end of the stream.
The bytes taken before an error are returned with it. -/
def readExact : Nat → Socket ε → Except (Option ε × Bytes) Bytes × Socket ε
  | 0, s => (.ok [], s)
  | _ + 1, [] => (.error (none, []), [])
  | _ + 1, .failed e :: s => (.error (some e, []), s)
  | k + 1, .segment c :: s =>
    if k + 1 ≤ c.val.length then (.ok (c.val.take (k + 1)), rest (k + 1) c s)
    else
      match readExact (k + 1 - c.val.length) s with
      | (.ok bytes, s) => (.ok (c.val ++ bytes), s)
      | (.error (e, taken), s) => (.error (e, c.val ++ taken), s)

theorem pending_append (s t : Socket ε) : pending (s ++ t) = pending s ++ pending t := by
  induction s with
  | nil => rfl
  | cons a s ih => cases a <;> simp only [List.cons_append, pending, ih, append_assoc]

theorem pending_rest (k : Nat) (c : { c : Bytes // c ≠ [] }) (s : Socket ε) :
    pending (rest k c s) = c.val.drop k ++ pending s := by
  unfold rest
  split
  · rfl
  · rename_i h
    rw [not_not.mp h, nil_append]

variable {s s' : Socket ε} {bytes : Bytes}

theorem read_ok {k : Nat} (h : read k s = (.ok bytes, s')) :
    bytes ++ pending s' = pending s := by
  cases s with
  | nil => cases h; rfl
  | cons a s =>
    cases a with
    | failed e => cases h
    | segment c =>
      cases h
      rw [pending_rest, ← append_assoc, take_append_drop]
      rfl

/-- The bytes a `read_exact` took off the socket. -/
def taken : Except (Option ε × Bytes) Bytes → Bytes
  | .ok bytes => bytes
  | .error (_, bytes) => bytes

theorem readExact_taken (s : Socket ε) (k : Nat) :
    taken (readExact k s).1 ++ pending (readExact k s).2 = pending s := by
  fun_induction readExact k s with
  | case1 => rfl
  | case2 => rfl
  | case3 => rfl
  | case4 k c s hle =>
    rw [pending_rest]
    show c.val.take (k + 1) ++ (c.val.drop (k + 1) ++ pending s) = _
    rw [← append_assoc, take_append_drop]
    rfl
  | case5 k c s hlt bytes s' hrec ih =>
    rw [hrec] at ih
    show (c.val ++ bytes) ++ pending s' = c.val ++ pending s
    rw [append_assoc, ← ih]
    rfl
  | case6 k c s hlt e part s' hrec ih =>
    rw [hrec] at ih
    show (c.val ++ part) ++ pending s' = c.val ++ pending s
    rw [append_assoc, ← ih]
    rfl

theorem readExact_ok {k : Nat} (h : readExact k s = (.ok bytes, s')) :
    bytes.length = k ∧ bytes ++ pending s' = pending s := by
  refine ⟨?_, ?_⟩
  · induction s generalizing k bytes with
    | nil =>
      cases k with
      | zero => cases h; rfl
      | succ k => cases h
    | cons a s ih =>
      cases k with
      | zero => cases h; rfl
      | succ k =>
        cases a with
        | failed e => cases h
        | segment c =>
          rw [readExact] at h
          split at h
          · rename_i hle
            cases h
            rw [length_take, Nat.min_eq_left hle]
          · rename_i hlt
            cases hr : readExact (k + 1 - c.val.length) s with
            | mk r s₂ =>
              rw [hr] at h
              cases r with
              | error e => cases h
              | ok more =>
                cases h
                rw [length_append, ih hr]
                omega
  · have hall := readExact_taken s k
    rw [h] at hall
    exact hall

theorem readExact_error {k : Nat} {e : Option ε}
    (h : readExact k s = (.error (e, bytes), s')) : bytes ++ pending s' = pending s := by
  have hall := readExact_taken s k
  rw [h] at hall
  exact hall

end Socket

end Wrongsv
