import Mathlib.Data.List.Basic
import Mathlib.Data.Set.Insert

/-!
# A replay window over packet numbers

The highest number so far and a bitmap of the `w` numbers up to it: bit `k` says
that `highest - k` was accepted. A number above the highest moves the window; one
that is too old for the bitmap is refused, whether it was seen or not.

`check_eq_none_iff` says which numbers are refused. A number that is accepted is
refused from then on (`refuses_of_check`, `Refuses.check`), whatever comes in
between.

`Tracks` relates the window to the set of all numbers accepted so far, which the
bitmap only shows the top of. It holds of a new window (`tracks_new`) and is kept
by every accepted number (`Tracks.check`), and with it a number is refused if and
only if it is in the set or too far below one that is (`Tracks.check_eq_none_iff`).
-/
namespace Wrongsv

structure ReplayWindow (w : Nat) where
  highest : Nat
  bitmap : BitVec w
  initialized : Bool
  deriving DecidableEq, Repr

namespace ReplayWindow

variable {w : Nat}

def new : ReplayWindow w := ⟨0, 0#w, false⟩

/-- `none` for a number that was seen or is too old. -/
def check (r : ReplayWindow w) (id : Nat) : Option (ReplayWindow w) :=
  if r.initialized = false then some ⟨id, 1#w, true⟩
  else if r.highest < id then
    some ⟨id, (if w ≤ id - r.highest then 0#w else r.bitmap <<< (id - r.highest)) ||| 1#w, true⟩
  else if w ≤ r.highest - id then none
  else if r.bitmap &&& 1#w <<< (r.highest - id) ≠ 0#w then none
  else some { r with bitmap := r.bitmap ||| 1#w <<< (r.highest - id) }

def Refuses (r : ReplayWindow w) (id : Nat) : Prop :=
  r.initialized = true ∧ id ≤ r.highest ∧ (w ≤ r.highest - id ∨ r.bitmap.getLsbD (r.highest - id) = true)

/-- The mask of bit `k` meets `b` if and only if that bit is set. -/
theorem bit_ne_zero_iff (b : BitVec w) {k : Nat} (h : k < w) :
    b &&& 1#w <<< k ≠ 0#w ↔ b.getLsbD k = true := by
  rw [BitVec.getLsbD_eq_getElem h]
  constructor
  · grind
  · intro hb h0
    have hk := congrArg (·.getLsbD k) h0
    simp [h, hb] at hk

theorem check_eq_none_iff (r : ReplayWindow w) (id : Nat) : r.check id = none ↔ r.Refuses id := by
  unfold check Refuses
  grind [bit_ne_zero_iff]

variable {r r' : ReplayWindow w} {id : Nat}

/-- **An accepted number is refused from now on.** -/
theorem refuses_of_check (hw : 0 < w) (h : r.check id = some r') : r'.Refuses id := by
  unfold check at h
  split at h
  · cases h
    exact ⟨rfl, Nat.le_refl _, .inr (by simp [hw])⟩
  split at h
  · cases h
    exact ⟨rfl, Nat.le_refl _, .inr (by simp [hw])⟩
  rename_i hi hlt
  split at h
  · cases h
  split at h
  · cases h
  cases h
  refine ⟨Bool.of_not_eq_false hi, Nat.not_lt.mp hlt, .inr ?_⟩
  simp_all

/-- **A refused number stays refused.** -/
theorem Refuses.check {j : Nat} (hj : r.Refuses j) (h : r.check id = some r') : r'.Refuses j := by
  obtain ⟨hi, hle, hj⟩ := hj
  unfold ReplayWindow.check at h
  rw [if_neg (by simp [hi])] at h
  split at h
  · rename_i hlt
    cases h
    refine ⟨rfl, by simp only; omega, ?_⟩
    -- the window has moved by `id - r.highest`, and so has the bit
    grind
  · rename_i hlt
    split at h
    · cases h
    split at h
    · cases h
    cases h
    refine ⟨hi, hle, ?_⟩
    grind

/-! ## The set of accepted numbers -/

/-- The window shows the set `accepted`: its maximum, and for every bit whether the
number that far below the maximum is in it. -/
structure Tracks (r : ReplayWindow w) (accepted : Set Nat) : Prop where
  initialized_iff : r.initialized = true ↔ accepted.Nonempty
  highest_mem : r.initialized = true → r.highest ∈ accepted
  le_highest : ∀ a ∈ accepted, a ≤ r.highest
  bit_iff : ∀ i < w, (r.bitmap.getLsbD i = true ↔ ∃ a ∈ accepted, a + i = r.highest)

theorem tracks_new : (new : ReplayWindow w).Tracks ∅ where
  initialized_iff := by simp [new]
  highest_mem := by simp [new]
  le_highest := by simp
  bit_iff := by simp [new]

variable {accepted : Set Nat}

theorem Tracks.eq_empty (h : r.Tracks accepted) (hi : r.initialized = false) : accepted = ∅ := by
  by_contra hne
  have := h.initialized_iff.mpr (Set.nonempty_iff_ne_empty.mpr hne)
  simp [hi] at this

/-- **A number is refused if and only if it was accepted before, or is `w` or more
below one that was.** -/
theorem Tracks.check_eq_none_iff (h : r.Tracks accepted) (id : Nat) :
    r.check id = none ↔ id ∈ accepted ∨ ∃ a ∈ accepted, id + w ≤ a := by
  rw [ReplayWindow.check_eq_none_iff]
  constructor
  · rintro ⟨hi, hle, hold | hbit⟩
    · exact .inr ⟨r.highest, h.highest_mem hi, by omega⟩
    · left
      have hw : r.highest - id < w := BitVec.lt_of_getLsbD hbit
      obtain ⟨a, ha, hsum⟩ := (h.bit_iff _ hw).mp hbit
      have : a = id := by omega
      exact this ▸ ha
  · rintro (hmem | ⟨a, ha, hold⟩)
    · have hle := h.le_highest id hmem
      refine ⟨h.initialized_iff.mpr ⟨id, hmem⟩, hle, ?_⟩
      by_cases hw : w ≤ r.highest - id
      · exact .inl hw
      · exact .inr ((h.bit_iff _ (by omega)).mpr ⟨id, hmem, by omega⟩)
    · have hle := h.le_highest a ha
      exact ⟨h.initialized_iff.mpr ⟨a, ha⟩, by omega, .inl (by omega)⟩

/-- The window after a number above all others: the bits move up, and the lowest
is the new number's. -/
theorem Tracks.raise (h : r.Tracks accepted) (hlt : r.highest < id) :
    Tracks ⟨id, (if w ≤ id - r.highest then 0#w else r.bitmap <<< (id - r.highest)) ||| 1#w, true⟩
      (insert id accepted) where
  initialized_iff := by simp
  highest_mem _ := Set.mem_insert _ _
  le_highest a ha := by
    rcases ha with rfl | ha
    · exact Nat.le_refl _
    · exact (Nat.le_of_lt (Nat.lt_of_le_of_lt (h.le_highest a ha) hlt))
  bit_iff i hw := by
    have hset : (∃ a ∈ insert id accepted, a + i = id) ↔ i = 0 ∨ ∃ a ∈ accepted, a + i = id := by
      simp
    rw [hset, BitVec.getLsbD_or]
    by_cases h0 : i = 0
    · subst h0
      simp [hw]
    have hone : (1#w).getLsbD i = false := by simp [h0]
    rw [hone, Bool.or_false]
    simp only [h0, false_or]
    by_cases hshift : w ≤ id - r.highest
    · -- nothing of the old window is left in the new one
      rw [if_pos hshift]
      simp only [BitVec.getLsbD_zero, Bool.false_eq_true, false_iff, not_exists, not_and]
      intro a ha hsum
      have := h.le_highest a ha
      omega
    · rw [if_neg hshift, BitVec.getLsbD_shiftLeft]
      by_cases hlow : i < id - r.highest
      · simp only [hlow, decide_true, Bool.not_true, Bool.and_false, Bool.false_and,
          Bool.false_eq_true, false_iff, not_exists, not_and]
        intro a ha hsum
        have := h.le_highest a ha
        omega
      · simp only [hw, hlow, decide_true, decide_false, Bool.not_false, Bool.true_and]
        rw [h.bit_iff _ (by omega)]
        grind

/-- The window after a number at or below the highest: one more bit is set. -/
theorem Tracks.mark (h : r.Tracks accepted) (hi : r.initialized = true) (hle : id ≤ r.highest)
    (hw : r.highest - id < w) :
    Tracks { r with bitmap := r.bitmap ||| 1#w <<< (r.highest - id) } (insert id accepted) where
  initialized_iff := by simp [hi]
  highest_mem _ := .inr (h.highest_mem hi)
  le_highest a ha := by
    rcases ha with rfl | ha
    · exact hle
    · exact h.le_highest a ha
  bit_iff i hiw := by
    have hset : (∃ a ∈ insert id accepted, a + i = r.highest) ↔
        i = r.highest - id ∨ ∃ a ∈ accepted, a + i = r.highest := by
      rw [Set.exists_mem_insert]
      exact or_congr_left (by omega)
    rw [hset, ← h.bit_iff i hiw, BitVec.getLsbD_or, Bool.or_eq_true, or_comm]
    refine or_congr_left ?_
    rw [BitVec.getLsbD_shiftLeft]
    simp only [hiw, decide_true, Bool.true_and, BitVec.getLsbD_one, Bool.and_eq_true,
      Bool.not_eq_true', decide_eq_false_iff_not, decide_eq_true_eq]
    omega

/-- **The accepted number joins the set.** -/
theorem Tracks.check (h : r.Tracks accepted) (hw : 0 < w) (hc : r.check id = some r') :
    r'.Tracks (insert id accepted) := by
  unfold ReplayWindow.check at hc
  split at hc
  · rename_i hi
    cases hc
    rw [h.eq_empty hi]
    refine ⟨by simp, by simp, by simp, fun i hiw => ?_⟩
    simp [hw]
  rename_i hi
  split at hc
  · rename_i hlt
    cases hc
    exact h.raise hlt
  rename_i hlt
  split at hc
  · cases hc
  rename_i hold
  split at hc
  · cases hc
  cases hc
  exact h.mark (Bool.of_not_eq_false hi) (Nat.not_lt.mp hlt) (Nat.not_le.mp hold)

end ReplayWindow

end Wrongsv
