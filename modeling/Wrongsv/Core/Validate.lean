import Mathlib.Tactic.Common

/-!
# Checks in sequence

A validator is a sequence of checks that stops at the first one that fails and says
why. The lemmas turn "it succeeds" into the conjunction of what it checks.
-/
namespace Wrongsv.Validate

variable {ε ε' α β : Type}

/-- `if c { return Err(e) }` -/
def rejectIf (c : Bool) (e : ε) : Except ε Unit := if c then .error e else .ok ()

/-- `for a in l { check(a)?; }` -/
def each (l : List α) (check : α → Except ε Unit) : Except ε Unit := l.forM check

/-- `if let Some(a) = o { check(a)?; }` -/
def ifSome (o : Option α) (check : α → Except ε Unit) : Except ε Unit :=
  match o with
  | some a => check a
  | none => .ok ()

/-- `r.map_err(f)?`, where the value is not used -/
def okOr (r : Except ε' α) (f : ε' → ε) : Except ε Unit :=
  match r with
  | .ok _ => .ok ()
  | .error e => .error (f e)

@[simp] theorem rejectIf_ok {c : Bool} {e : ε} : rejectIf c e = .ok () ↔ c = false := by
  cases c <;> simp [rejectIf]

theorem bind_eq_ok {x : Except ε α} {f : α → Except ε β} {b : β} :
    (x >>= f) = .ok b ↔ ∃ a, x = .ok a ∧ f a = .ok b := by
  cases x with
  | error e => simp [bind, Except.bind]
  | ok a => simp [bind, Except.bind]

@[simp] theorem bind_ok {check rest : Except ε Unit} :
    (check >>= fun _ => rest) = .ok () ↔ check = .ok () ∧ rest = .ok () := by
  rw [bind_eq_ok]
  constructor
  · rintro ⟨u, hcheck, hrest⟩
    exact ⟨hcheck, hrest⟩
  · rintro ⟨hcheck, hrest⟩
    exact ⟨(), hcheck, hrest⟩

@[simp] theorem each_ok {l : List α} {check : α → Except ε Unit} :
    each l check = .ok () ↔ ∀ a ∈ l, check a = .ok () := by
  induction l with
  | nil => simp [each, pure, Except.pure]
  | cons a l ih =>
    have hstep : each (a :: l) check = (check a >>= fun _ => each l check) := rfl
    rw [hstep, bind_ok, ih]
    simp

@[simp] theorem ifSome_ok {o : Option α} {check : α → Except ε Unit} :
    ifSome o check = .ok () ↔ ∀ a, o = some a → check a = .ok () := by
  cases o <;> simp [ifSome]

@[simp] theorem okOr_ok {r : Except ε' α} {f : ε' → ε} : okOr r f = .ok () ↔ ∃ a, r = .ok a := by
  cases r <;> simp [okOr]

end Wrongsv.Validate
