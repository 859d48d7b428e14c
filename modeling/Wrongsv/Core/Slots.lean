import Mathlib.Data.List.Perm.Subperm
import Mathlib.Data.List.Nodup

/-!
# Slots for the chunks of a message

A message is cut into chunks that arrive one by one, in any order. The receiver has
one slot for each, fills them as they come, and joins them when all are full.

`PartOf chunks s` says that every full slot of `s` has its chunk, so that the slots
join to the message when they are all full (`PartOf.join`). `Arrived chunks got s`
also says which slots those are.
-/
namespace Wrongsv
open List

abbrev Slots (α : Type) := List (Option (List α))

namespace Slots

variable {α : Type} {chunks : List (List α)} {got : List Nat} {s : Slots α} {i n : Nat} {x : List α}

def new (n : Nat) : Slots α := List.replicate n none

def full (s : Slots α) : Bool := s.all Option.isSome

def join (s : Slots α) : List α := (s.filterMap id).flatten

def Filled (s : Slots α) (i : Nat) : Prop := ∃ x, s[i]? = some (some x)

@[simp] theorem new_length (n : Nat) : (new n : Slots α).length = n := length_replicate

theorem not_filled_new (n i : Nat) : ¬ (new n : Slots α).Filled i := by
  rintro ⟨x, hx⟩
  simp [new, List.getElem?_replicate] at hx

theorem filled_set (hi : i < s.length) (x : List α) (j : Nat) :
    Filled (s.set i (some x)) j ↔ j = i ∨ s.Filled j := by
  unfold Filled
  by_cases hij : j = i
  · subst hij
    simp [hi]
  · simp [Ne.symm hij, hij]

theorem full_iff (s : Slots α) : s.full = true ↔ ∀ i < s.length, s.Filled i := by
  unfold full Filled
  rw [all_eq_true]
  constructor
  · intro h i hi
    obtain ⟨x, hx⟩ := Option.isSome_iff_exists.mp (h s[i] (getElem_mem hi))
    exact ⟨x, by rw [List.getElem?_eq_getElem hi, hx]⟩
  · intro h slot hslot
    obtain ⟨i, hi, rfl⟩ := getElem_of_mem hslot
    obtain ⟨x, hx⟩ := h i hi
    rw [List.getElem?_eq_getElem hi, Option.some.injEq] at hx
    rw [hx]
    rfl

/-! ## Slots of one message -/

structure PartOf (chunks : List (List α)) (s : Slots α) : Prop where
  length : s.length = chunks.length
  chunk : ∀ (i : Nat) (x : List α), s[i]? = some (some x) → chunks[i]? = some x

theorem part_new (chunks : List (List α)) : PartOf chunks (new chunks.length) :=
  ⟨new_length _, fun i x hx => absurd ⟨x, hx⟩ (not_filled_new _ i)⟩

theorem PartOf.set (h : PartOf chunks s) (hx : chunks[i]? = some x) :
    PartOf chunks (s.set i (some x)) := by
  refine ⟨by rw [length_set, h.length], fun j y hy => ?_⟩
  by_cases hij : i = j
  · subst hij
    have hi : i < s.length := by
      rw [h.length]
      exact (List.getElem?_eq_some_iff.mp hx).1
    rw [List.getElem?_set_self hi] at hy
    cases hy
    exact hx
  · rw [List.getElem?_set_ne hij] at hy
    exact h.chunk j y hy

/-- **Full slots are the message.** -/
theorem PartOf.join (h : PartOf chunks s) (hfull : s.full = true) : s.join = chunks.flatten := by
  have hs : s = chunks.map some := by
    apply List.ext_getElem?
    intro i
    by_cases hi : i < s.length
    · obtain ⟨x, hx⟩ := (full_iff s).mp hfull i hi
      rw [hx, List.getElem?_map, h.chunk i x hx]
      rfl
    · rw [List.getElem?_eq_none (Nat.not_lt.mp hi), List.getElem?_map,
        List.getElem?_eq_none (by rw [← h.length]; exact Nat.not_lt.mp hi)]
      rfl
  rw [Slots.join, hs, filterMap_map]
  simp

/-- The only chunk is the message. -/
theorem flatten_of_length_one (h : chunks.length = 1) (hx : chunks[i]? = some x) :
    x = chunks.flatten := by
  obtain ⟨chunk, rfl⟩ := List.length_eq_one_iff.mp h
  have hi : i = 0 := by
    have hlt : i < [chunk].length := (List.getElem?_eq_some_iff.mp hx).1
    omega
  rw [hi, List.getElem?_cons_zero] at hx
  rw [← Option.some.inj hx, flatten_singleton]

/-! ## Which chunks have arrived -/

theorem length_le_of_nodup (hnodup : got.Nodup) (hbound : ∀ i ∈ got, i < n) : got.length ≤ n := by
  have hsub : got.Subperm (List.range n) := subperm_of_subset hnodup fun i hi => List.mem_range.mpr (hbound i hi)
  simpa using hsub.length_le

theorem le_length_of_mem (hall : ∀ i < n, i ∈ got) : n ≤ got.length := by
  have hsub : (List.range n).Subperm got := subperm_of_subset nodup_range fun i hi => hall i (List.mem_range.mp hi)
  simpa using hsub.length_le

structure Arrived (chunks : List (List α)) (got : List Nat) (s : Slots α) : Prop where
  part : PartOf chunks s
  nodup : got.Nodup
  bound : ∀ i ∈ got, i < chunks.length
  filled : ∀ i, s.Filled i ↔ i ∈ got

theorem arrived_new (chunks : List (List α)) : Arrived chunks [] (new chunks.length) :=
  ⟨part_new chunks, .nil, fun _ hi => absurd hi not_mem_nil,
    fun i => iff_of_false (not_filled_new _ i) not_mem_nil⟩

theorem Arrived.set (h : Arrived chunks got s) (hx : chunks[i]? = some x) (hi : i ∉ got) :
    Arrived chunks (i :: got) (s.set i (some x)) := by
  have hlt : i < chunks.length := (List.getElem?_eq_some_iff.mp hx).1
  refine ⟨h.part.set hx, List.nodup_cons.mpr ⟨hi, h.nodup⟩, fun j hj => ?_, fun j => ?_⟩
  · rcases List.mem_cons.mp hj with rfl | hj
    · exact hlt
    · exact h.bound j hj
  · rw [filled_set (by rw [h.part.length]; exact hlt), mem_cons, h.filled]

theorem Arrived.length_le (h : Arrived chunks got s) : got.length ≤ chunks.length :=
  length_le_of_nodup h.nodup h.bound

/-- **All slots are full when as many chunks have arrived as there are.** -/
theorem Arrived.full_iff (h : Arrived chunks got s) :
    s.full = true ↔ got.length = chunks.length := by
  rw [Slots.full_iff, h.part.length]
  constructor
  · intro hall
    exact Nat.le_antisymm h.length_le (le_length_of_mem fun i hi => (h.filled i).mp (hall i hi))
  · intro hlen i hi
    have hsub : got.Subperm (List.range chunks.length) :=
      subperm_of_subset h.nodup fun j hj => List.mem_range.mpr (h.bound j hj)
    have hperm : got.Perm (List.range chunks.length) := hsub.perm_of_length_le (by simp [hlen])
    rw [h.filled, hperm.mem_iff]
    exact List.mem_range.mpr hi

end Slots

end Wrongsv
