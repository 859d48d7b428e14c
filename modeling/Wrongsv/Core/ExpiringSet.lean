import Mathlib.Data.List.TakeWhile
import Mathlib.Order.Basic

/-!
# A set that forgets

Keys with the time they were stored at, the oldest first. Storing a key first
drops the entries at the front that are older than a window, then refuses a key
that is still there.

Dropping at the front is enough as long as time does not run backwards
(`Ordered`): then it leaves exactly the entries inside the window (`mem_purge`),
so a key is refused if and only if it was stored within the window
(`store_refuses_iff`).
-/
namespace Wrongsv
open List

abbrev ExpiringSet (α : Type) := List (Nat × α)

namespace ExpiringSet

variable {α : Type}

def purge (window now : Nat) (s : ExpiringSet α) : ExpiringSet α :=
  s.dropWhile fun e => decide (window < now - e.1)

/-- Whether the key was stored, and the set behind it. -/
def store [DecidableEq α] (window now : Nat) (a : α) (s : ExpiringSet α) : Bool × ExpiringSet α :=
  if (purge window now s).any (fun e => decide (e.2 = a)) then (false, purge window now s)
  else (true, purge window now s ++ [(now, a)])

/-- The entries are in the order of their times, and none is of the future. -/
structure Ordered (now : Nat) (s : ExpiringSet α) : Prop where
  pairwise : s.Pairwise (fun e e' => e.1 ≤ e'.1)
  past : ∀ e ∈ s, e.1 ≤ now

section
variable {window now : Nat} {s : ExpiringSet α}

theorem ordered_nil : Ordered now ([] : ExpiringSet α) := ⟨.nil, (fun _ h => nomatch h)⟩

/-- **Purging is exact.** -/
theorem mem_purge (h : s.Pairwise (fun e e' => e.1 ≤ e'.1)) (e : Nat × α) :
    e ∈ purge window now s ↔ e ∈ s ∧ now - e.1 ≤ window := by
  induction s with
  | nil => exact ⟨(fun he => nomatch he), fun he => he.1⟩
  | cons first s ih =>
    obtain ⟨hle, hs⟩ := List.pairwise_cons.mp h
    by_cases hold : window < now - first.1
    · have hdrop : purge window now (first :: s) = purge window now s :=
        dropWhile_cons_of_pos (decide_eq_true hold)
      rw [hdrop, ih hs]
      constructor
      · exact fun he => ⟨mem_cons_of_mem _ he.1, he.2⟩
      · rintro ⟨he, hnew⟩
        rcases List.mem_cons.mp he with rfl | he
        · exact absurd hold (Nat.not_lt.mpr hnew)
        · exact ⟨he, hnew⟩
    · have hkeep : purge window now (first :: s) = first :: s :=
        dropWhile_cons_of_neg (by rwa [decide_eq_true_eq])
      rw [hkeep]
      refine ⟨fun he => ⟨he, ?_⟩, And.left⟩
      -- the first entry is the oldest
      rcases List.mem_cons.mp he with rfl | he
      · exact Nat.not_lt.mp hold
      · have := hle e he
        omega

theorem Ordered.purge (h : Ordered now s) : Ordered now (purge window now s) :=
  ⟨h.pairwise.sublist (dropWhile_sublist _), fun e he => h.past e ((mem_purge h.pairwise e).mp he).1⟩

variable [DecidableEq α] {a : α}

/-- **A key is refused if and only if it was stored within the window.** -/
theorem store_refuses_iff (h : s.Pairwise (fun e e' => e.1 ≤ e'.1)) :
    (store window now a s).1 = false ↔ ∃ t, (t, a) ∈ s ∧ now - t ≤ window := by
  have hany : (ExpiringSet.purge window now s).any (fun e => decide (e.2 = a)) = true ↔
      ∃ t, (t, a) ∈ s ∧ now - t ≤ window := by
    rw [any_eq_true]
    constructor
    · rintro ⟨⟨t, a'⟩, he, ha⟩
      cases of_decide_eq_true ha
      exact ⟨t, (mem_purge h _).mp he⟩
    · rintro ⟨t, he⟩
      exact ⟨(t, a), (mem_purge h _).mpr he, decide_eq_true rfl⟩
  rw [← hany, store]
  split
  · rename_i hseen
    exact iff_of_true rfl hseen
  · rename_i hnew
    exact iff_of_false Bool.noConfusion hnew

theorem mem_store (h : (store window now a s).1 = true) : (now, a) ∈ (store window now a s).2 := by
  rw [store] at h ⊢
  split at h
  · cases h
  rename_i hnew
  rw [if_neg hnew]
  exact mem_append_right _ mem_cons_self

theorem mem_store_of_mem (h : s.Pairwise (fun e e' => e.1 ≤ e'.1)) {e : Nat × α} (he : e ∈ s)
    (hnew : now - e.1 ≤ window) : e ∈ (store window now a s).2 := by
  have hkept := (mem_purge h e).mpr ⟨he, hnew⟩
  rw [store]
  split
  · exact hkept
  · exact mem_append_left _ hkept

theorem Ordered.store {now' : Nat} (h : Ordered now s) (hle : now ≤ now') :
    Ordered now' (store window now' a s).2 := by
  have hp : Ordered now' (ExpiringSet.purge window now' s) :=
    Ordered.purge ⟨h.pairwise, fun e he => Nat.le_trans (h.past e he) hle⟩
  rw [ExpiringSet.store]
  split
  · exact hp
  refine ⟨List.pairwise_append.mpr ⟨hp.pairwise, pairwise_singleton _ _, fun e he e' he' => ?_⟩,
    fun e he => ?_⟩
  · rw [List.mem_singleton.mp he']
    exact hp.past e he
  · rcases List.mem_append.mp he with he | he
    · exact hp.past e he
    · rw [List.mem_singleton.mp he]

end

end ExpiringSet

end Wrongsv
