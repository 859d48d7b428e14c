import Mathlib.Data.List.Nodup

/-!
# Values from a counter that wraps

A sequence whose values repeat with a period and differ within it, such as the nonces
made from a counter of fixed width. A stretch of it is free of repetitions exactly as
long as the period; two such sequences side by side, if besides they have nothing in
common.
-/
namespace Wrongsv.Counter
open List

variable {α : Type}

/-- Equal values come from counters that are equal up to the period. -/
def Periodic (p : Nat) (f : Nat → α) : Prop := ∀ i j, f i = f j ↔ i % p = j % p

theorem nodup_map_range_iff {p : Nat} (hp : 0 < p) {f : Nat → α} (hf : Periodic p f) (k : Nat) :
    ((List.range k).map f).Nodup ↔ k ≤ p := by
  rw [nodup_map_iff_inj_on nodup_range]
  constructor
  · intro hinj
    by_contra hk
    have hp0 := hinj p (List.mem_range.mpr (by omega)) 0 (List.mem_range.mpr (by omega))
      ((hf p 0).mpr (by simp))
    omega
  · intro hk i hi j hj heq
    rw [mem_range] at hi hj
    have hmod := (hf i j).mp heq
    rwa [Nat.mod_eq_of_lt (by omega), Nat.mod_eq_of_lt (by omega)] at hmod

theorem map_sublist_flatMap (f g : Nat → α) (l : List Nat) :
    (l.map f).Sublist (l.flatMap fun i => [f i, g i]) := by
  induction l with
  | nil => exact List.Sublist.slnil
  | cons i l ih =>
    exact (ih.cons (g i)).cons_cons (f i)

theorem nodup_flatMap_range_iff {p : Nat} (hp : 0 < p) {f g : Nat → α} (hf : Periodic p f) (hg : Periodic p g)
    {shared : Prop} (hfg : ∀ i j, f i = g j ↔ shared ∧ i % p = j % p) (k : Nat) :
    ((List.range k).flatMap fun i => [f i, g i]).Nodup ↔ k ≤ p ∧ (shared → k = 0) := by
  constructor
  · intro hnodup
    refine ⟨(nodup_map_range_iff hp hf k).mp (hnodup.sublist (map_sublist_flatMap f g _)), fun hs => ?_⟩
    by_contra hk
    have hpair := (List.nodup_flatMap.mp hnodup).1 0 (List.mem_range.mpr (by omega))
    simp [(hfg 0 0).mpr ⟨hs, rfl⟩] at hpair
  · rintro ⟨hk, hshared⟩
    rw [nodup_flatMap]
    refine ⟨fun i hi => ?_, List.nodup_range.pairwise_of_forall_ne fun i hi j hj hne => ?_⟩
    · rw [mem_range] at hi
      have hne : f i ≠ g i := fun heq => by
        have := hshared ((hfg i i).mp heq).1
        omega
      simp [hne]
    · rw [mem_range] at hi hj
      have hmod : i % p ≠ j % p := by
        rw [Nat.mod_eq_of_lt (by omega), Nat.mod_eq_of_lt (by omega)]
        exact hne
      have hfg' : ∀ i' j', f i' ≠ g j' := fun i' j' heq => by
        have := hshared ((hfg i' j').mp heq).1
        omega
      intro a ha hb
      simp only [mem_cons, not_mem_nil, or_false] at ha hb
      rcases ha with rfl | rfl <;> rcases hb with hb | hb
      · exact hmod ((hf i j).mp hb)
      · exact hfg' i j hb
      · exact hfg' j i hb.symm
      · exact hmod ((hg i j).mp hb)

end Wrongsv.Counter
