/-!
# Transition systems

Sessions and networks of sessions are transition systems: initial states and
a labelled step relation. An invariant is proved once for the initial states
and once for a single step.

Some protocols are only safe as long as something does not get too large, a
counter before it wraps for instance. `Reachable.invariant_within` has such a
limit: it is only asked of the last state, because a state within it was never
reached from one beyond it.
-/
namespace Wrongsv

structure LTS (S L : Type) where
  init : S → Prop
  step : S → L → S → Prop

variable {S L : Type} {T : LTS S L}

/-- The states of all finite runs. -/
inductive LTS.Reachable (T : LTS S L) : S → Prop where
  | init {s : S} (start : T.init s) : T.Reachable s
  | step {s s' : S} {l : L} (before : T.Reachable s) (move : T.step s l s') : T.Reachable s'

theorem LTS.Reachable.invariant_within {Limit P : S → Prop}
    (limit : ∀ s l s', T.step s l s' → Limit s' → Limit s) (init : ∀ s, T.init s → P s)
    (step : ∀ s l s', T.step s l s' → Limit s' → P s → P s') {s : S} (h : T.Reachable s)
    (hl : Limit s) : P s := by
  induction h with
  | init start => exact init _ start
  | step before move ih => exact step _ _ _ move hl (ih (limit _ _ _ move hl))

end Wrongsv
