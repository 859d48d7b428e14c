import Mathlib.Data.List.Basic

/-!
# A loop that ends with the first input that fails
-/
namespace Wrongsv

variable {σ ι ω ε : Type} (step : ι → σ → Except ε ω × σ)

/-- What is put out for each input, up to the first one that fails. -/
def loop : σ → List ι → List ω
  | _, [] => []
  | s, i :: inputs =>
    match step i s with
    | (.error _, _) => []
    | (.ok out, s) => out :: loop s inputs

variable {step} {s s' : σ} {i : ι} {inputs : List ι}

theorem loop_cons_error {e : ε} (h : step i s = (.error e, s')) :
    loop step s (i :: inputs) = [] := by
  simp only [loop, h]

theorem loop_cons_ok {out : ω} (h : step i s = (.ok out, s')) :
    loop step s (i :: inputs) = out :: loop step s' inputs := by
  simp only [loop, h]

theorem loop_cons_inv {out : ω} {outs : List ω} (h : loop step s (i :: inputs) = out :: outs) :
    ∃ s', step i s = (.ok out, s') ∧ loop step s' inputs = outs := by
  rcases hstep : step i s with ⟨e | out', s'⟩
  · rw [loop_cons_error hstep] at h
    cases h
  · rw [loop_cons_ok hstep, List.cons.injEq] at h
    exact ⟨s', by rw [h.1], h.2⟩

end Wrongsv
