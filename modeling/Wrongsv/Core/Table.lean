import Mathlib.Data.Finmap
import Mathlib.Logic.Function.Basic

/-!
# Tables

A hash map as far as most users can see it: what is stored under each key. Nothing
depends on the order of the entries or on how many there are; for those who do look at
them there is `AList`.
-/
namespace Wrongsv

abbrev Table (κ α : Type) := κ → Option α

/-- Where the order matters: the one in which a map is iterated over is some order of
its entries, and nothing else is known about it. -/
structure HashOrder (α : Type) where
  visit : List α → List α
  perm : ∀ entries, (visit entries).Perm entries

namespace Table

variable {κ α : Type}

def empty : Table κ α := fun _ => none

/-- `retain` -/
def retain (keep : α → Bool) (t : Table κ α) : Table κ α := fun k => (t k).filter keep

@[simp] theorem empty_apply (k : κ) : (empty : Table κ α) k = none := rfl

@[simp] theorem retain_apply (keep : α → Bool) (t : Table κ α) (k : κ) :
    t.retain keep k = (t k).filter keep := rfl

variable [DecidableEq κ]

def insert (t : Table κ α) (k : κ) (a : α) : Table κ α := Function.update t k (some a)

def remove (t : Table κ α) (k : κ) : Table κ α := Function.update t k none

variable (t : Table κ α)

@[simp] theorem insert_self (k : κ) (a : α) : t.insert k a k = some a :=
  Function.update_self ..

@[simp] theorem remove_self (k : κ) : t.remove k k = none :=
  Function.update_self ..

@[grind =] theorem insert_apply (k k' : κ) (a : α) :
    t.insert k a k' = if k' = k then some a else t k' := Function.update_apply ..

@[grind =] theorem remove_apply (k k' : κ) : t.remove k k' = if k' = k then none else t k' :=
  Function.update_apply ..

theorem insert_of_ne {k k' : κ} (h : k' ≠ k) (a : α) : t.insert k a k' = t k' :=
  Function.update_of_ne h ..

theorem remove_of_ne {k k' : κ} (h : k' ≠ k) : t.remove k k' = t k' :=
  Function.update_of_ne h ..

/-- An operation that looks at one entry only and changes no other one. -/
structure Local {ρ : Type} (op : Table κ α → ρ × Table κ α) (k : κ) : Prop where
  sees : ∀ {t t' : Table κ α}, t k = t' k → (op t).1 = (op t').1 ∧ (op t).2 k = (op t').2 k
  frame : ∀ (t : Table κ α) {j : κ}, j ≠ k → (op t).2 j = t j

end Table

end Wrongsv
