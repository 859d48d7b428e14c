import Wrongsv.Core

/-!
# Slices with bounds checks

A parser that indexes into a slice panics when the index is out of range. Here
a panic is `none`, and an error the parser returns is `some (.error e)`.

`Safe p P` says that `p` does not panic and that the value it returns, if it
returns one, satisfies `P`. The rules carry what was checked to where it is
used: behind `rejectIf c` the condition is known to be false.
-/
namespace Wrongsv
open List

abbrev Checked (ε α : Type) := ExceptT ε Option α

namespace Checked

variable {ε α β : Type}

def panicked : Checked ε α := (none : Option (Except ε α))

/-- `if c { return Err(e) }` -/
def rejectIf (c : Prop) [Decidable c] (e : ε) : Checked ε Unit := if c then throw e else pure ()

/-- `data[i]` -/
def index (data : Bytes) (i : Nat) : Checked ε UInt8 :=
  match data[i]? with
  | some b => pure b
  | none => panicked

/-- `u16::from_be_bytes([data[i], data[i + 1]])` -/
def indexU16 (data : Bytes) (i : Nat) : Checked ε Nat := do
  let hi ← index data i
  let lo ← index data (i + 1)
  return u16 hi lo

/-- `a - b` in `usize` -/
def subUsize (a b : Nat) : Option Nat := if b ≤ a then some (a - b) else none

/-- `&data[i..j]`, where nothing else can fail. -/
def slice (data : Bytes) (i j : Nat) : Option Bytes :=
  if i ≤ j ∧ j ≤ data.length then some ((data.drop i).take (j - i)) else none

/-- `&data[i..j]` -/
def range (data : Bytes) (i j : Nat) : Checked ε Bytes := (slice data i j).map .ok

/-- `array.copy_from_slice(&data[i..i + n])` for an array of `n` bytes. -/
def copyFrom (n : Nat) (data : Bytes) (i : Nat) : Checked ε { b : Bytes // b.length = n } :=
  if h : i + n ≤ data.length then
    pure ⟨(data.drop i).take n, by rw [length_take, length_drop]; omega⟩
  else panicked

/-! ## Values -/

theorem range_eq {data : Bytes} {i j : Nat} (hij : i ≤ j) (hj : j ≤ data.length) :
    range (ε := ε) data i j = pure ((data.drop i).take (j - i)) := by
  rw [range, slice, if_pos ⟨hij, hj⟩]
  rfl

theorem rejectIf_neg {c : Prop} [Decidable c] {e : ε} (h : ¬c) : rejectIf c e = pure () := if_neg h

/-- Behind the first `i` bytes of `data` comes `rest`. -/
def At (data : Bytes) (i : Nat) (rest : Bytes) : Prop :=
  ∃ front, data = front ++ rest ∧ front.length = i

namespace At

variable {data x t : Bytes} {i n : Nat}

theorem start : At data 0 data := ⟨[], rfl, rfl⟩

theorem skip (h : At data i (x ++ t)) (hx : x.length = n) : At data (i + n) t := by
  obtain ⟨front, rfl, rfl⟩ := h
  exact ⟨front ++ x, (append_assoc _ _ _).symm, by rw [length_append, hx]⟩

theorem next {b : UInt8} (h : At data i (b :: t)) : At data (i + 1) t := @skip data [b] t i 1 h rfl

theorem skip16 (h : At data i (be16 n ++ t)) : At data (i + 2) t := h.skip (be16_length n)

theorem index {b : UInt8} (h : At data i (b :: t)) : index (ε := ε) data i = pure b := by
  obtain ⟨front, rfl, rfl⟩ := h
  have hget : (front ++ b :: t)[front.length]? = some b := by
    rw [List.getElem?_append_right (Nat.le_refl _), Nat.sub_self]
    rfl
  rw [Checked.index, hget]

theorem indexU16 (h : At data i (be16 n ++ t)) (hn : n < 65536) :
    indexU16 (ε := ε) data i = pure n := by
  have hhi : Checked.index (ε := ε) data i = pure (UInt8.ofNat (n / 256)) := h.index
  have hlo : Checked.index (ε := ε) data (i + 1) = pure (UInt8.ofNat n) := h.next.index
  rw [Checked.indexU16, hhi, pure_bind, hlo, pure_bind, u16_be16 n hn]

theorem copyFrom {b : { b : Bytes // b.length = n }} (h : At data i (b.val ++ t)) :
    copyFrom (ε := ε) n data i = pure b := by
  obtain ⟨front, rfl, rfl⟩ := h
  have hle : front.length + n ≤ (front ++ (b.val ++ t)).length := by
    simp only [length_append, b.property]
    omega
  have hval : ((front ++ (b.val ++ t)).drop front.length).take n = b.val := by
    rw [drop_left, take_left' b.property]
  rw [Checked.copyFrom, dif_pos hle]
  exact congrArg pure (Subtype.ext hval)

/-- `&data[i..]` -/
theorem range (h : At data i t) : range (ε := ε) data i data.length = pure t := by
  obtain ⟨front, rfl, rfl⟩ := h
  rw [range_eq (by rw [length_append]; omega) (Nat.le_refl _), drop_left, length_append, Nat.add_sub_cancel_left,
    take_length]

end At

/-- `&data[..i]` -/
theorem range_take {a t : Bytes} {i : Nat} (hi : a.length = i) :
    range (ε := ε) (a ++ t) 0 i = pure a := by
  subst hi
  rw [range_eq (Nat.zero_le _) (by rw [length_append]; omega), drop_zero, Nat.sub_zero, take_left]

/-! ## No panic -/

def Safe (p : Checked ε α) (P : α → Prop) : Prop :=
  ∃ r : Except ε α, p = some r ∧ ∀ a, r = .ok a → P a

variable {P : α → Prop}

theorem Safe.mono {p : Checked ε α} {Q : α → Prop} (hp : Safe p P) (h : ∀ a, P a → Q a) :
    Safe p Q := by
  obtain ⟨r, hr, hP⟩ := hp
  exact ⟨r, hr, fun a ha => h a (hP a ha)⟩

theorem safe_pure {a : α} (h : P a) : Safe (pure a : Checked ε α) P :=
  ⟨.ok a, rfl, fun b hb => by cases hb; exact h⟩

theorem safe_throw (e : ε) (P : α → Prop) : Safe (throw e : Checked ε α) P :=
  ⟨.error e, rfl, fun _ h => (nomatch h)⟩

theorem safe_bind {p : Checked ε α} {f : α → Checked ε β} {Q : β → Prop}
    (hp : Safe p P) (hf : ∀ a, P a → Safe (f a) Q) : Safe (p >>= f) Q := by
  obtain ⟨r, rfl, hP⟩ := hp
  cases r with
  | ok a => exact hf a (hP a rfl)
  | error e => exact ⟨.error e, rfl, fun _ h => (nomatch h)⟩

theorem safe_rejectIf (c : Prop) [Decidable c] (e : ε) : Safe (rejectIf c e) (fun _ => ¬c) := by
  unfold rejectIf
  split
  · exact safe_throw e _
  · rename_i h; exact safe_pure h

variable {data : Bytes}

theorem safe_index {i : Nat} (h : i < data.length) :
    Safe (index data i : Checked ε UInt8) (fun b => data[i]? = some b) := by
  rw [index, List.getElem?_eq_getElem h]
  exact safe_pure rfl

theorem safe_indexU16 {i : Nat} (h : i + 1 < data.length) :
    Safe (indexU16 data i : Checked ε Nat) (fun _ => True) :=
  safe_bind (safe_index (by omega)) fun _ _ => safe_bind (safe_index h) fun _ _ => safe_pure trivial

theorem safe_range {i j : Nat} (hij : i ≤ j) (hj : j ≤ data.length) :
    Safe (range data i j : Checked ε Bytes) (fun b => b = (data.drop i).take (j - i)) := by
  rw [range_eq hij hj]
  exact safe_pure rfl

theorem safe_copyFrom {n : Nat} {i : Nat} (h : i + n ≤ data.length) :
    Safe (copyFrom n data i : Checked ε { b : Bytes // b.length = n }) (fun b => b.val = (data.drop i).take n) := by
  rw [copyFrom, dif_pos h]
  exact safe_pure rfl

end Checked

end Wrongsv
