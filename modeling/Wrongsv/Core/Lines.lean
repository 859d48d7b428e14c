import Wrongsv.Core

/-!
# Lines that end in a pair

A list cut at every occurrence of two given elements in a row, and lists written
that way. With the pair CR LF the elements can be bytes or characters.

Results, beside `splitPair_joinPair`, `map_splitPair`:
* `splitPair_append`: what is in front of the first pair stays in front of the
  first line.
-/
namespace Wrongsv
open List

section
variable {α β : Type} [DecidableEq α] [DecidableEq β] {a b : α}

/-- `p` in front of the first of the lists. -/
def prepend (p : List α) : List (List α) → List (List α)
  | [] => [p]
  | l :: ls => (p ++ l) :: ls

/-- `split` at the pair `a`, `b`. -/
def splitPair (a b : α) : List α → List (List α)
  | [] => [[]]
  | [c] => [[c]]
  | c :: d :: cs => if c = a ∧ d = b then [] :: splitPair a b cs else prepend [c] (splitPair a b (d :: cs))

/-- The lines with the pair between any two of them. -/
def joinPair (a b : α) : List (List α) → List α
  | [] => []
  | [l] => l
  | l :: l' :: ls => l ++ (a :: b :: joinPair a b (l' :: ls))

/-- The lines, each with the pair behind it. -/
def endPair (a b : α) (ls : List (List α)) : List α := ls.flatMap (· ++ [a, b])

theorem splitPair_ne_nil (cs : List α) : splitPair a b cs ≠ [] := by
  match cs with
  | [] => exact cons_ne_nil _ _
  | [c] => exact cons_ne_nil _ _
  | c :: d :: cs =>
    rw [splitPair]
    split
    · exact cons_ne_nil _ _
    cases splitPair a b (d :: cs) with
    | nil => exact cons_ne_nil _ _
    | cons l ls => exact cons_ne_nil _ _

theorem splitPair_pair (cs : List α) : splitPair a b (a :: b :: cs) = [] :: splitPair a b cs := by
  exact if_pos ⟨rfl, rfl⟩

theorem splitPair_cons {c : α} {cs : List α} (h : c = a → cs.head? ≠ some b) :
    splitPair a b (c :: cs) = prepend [c] (splitPair a b cs) := by
  cases cs with
  | nil => rfl
  | cons d cs =>
    exact if_neg fun hp => h hp.1 (congrArg some hp.2)

omit [DecidableEq α] in
theorem prepend_prepend (p q : List α) {ls : List (List α)} (h : ls ≠ []) :
    prepend p (prepend q ls) = prepend (p ++ q) ls := by
  cases ls with
  | nil => exact absurd rfl h
  | cons l ls => rw [prepend, prepend, prepend, append_assoc]

theorem splitPair_append {p : List α} (h : a ∉ p) (cs : List α) :
    splitPair a b (p ++ cs) = prepend p (splitPair a b cs) := by
  induction p with
  | nil =>
    obtain ⟨l, ls, hl⟩ := exists_cons_of_ne_nil (splitPair_ne_nil (a := a) (b := b) cs)
    rw [nil_append, hl]
    rfl
  | cons c p ih =>
    rw [mem_cons, not_or] at h
    rw [cons_append, splitPair_cons fun hc => absurd hc.symm h.1, ih h.2,
      prepend_prepend _ _ (splitPair_ne_nil cs)]
    rfl

theorem splitPair_line {l : List α} (h : a ∉ l) : splitPair a b l = [l] := by
  have hl := splitPair_append (b := b) h []
  rw [append_nil] at hl
  rw [hl]
  exact congrArg (fun x => [x]) (append_nil l)

theorem splitPair_line_append {l : List α} (h : a ∉ l) (cs : List α) :
    splitPair a b (l ++ a :: b :: cs) = l :: splitPair a b cs := by
  rw [splitPair_append h, splitPair_pair, prepend, append_nil]

theorem splitPair_endPair {ls : List (List α)} (h : ∀ l ∈ ls, a ∉ l) (cs : List α) :
    splitPair a b (endPair a b ls ++ cs) = ls ++ splitPair a b cs := by
  induction ls with
  | nil => rfl
  | cons l ls ih =>
    have hcons : endPair a b (l :: ls) ++ cs = l ++ a :: b :: (endPair a b ls ++ cs) := by
      simp only [endPair, flatMap_cons, append_assoc, cons_append, nil_append]
    rw [hcons, splitPair_line_append (h l mem_cons_self), ih fun l' hl' => h l'
      (mem_cons_of_mem _ hl'), cons_append]

/-- **Lines are read back as they were written.** -/
theorem splitPair_joinPair {ls : List (List α)} (hne : ls ≠ []) (h : ∀ l ∈ ls, a ∉ l) :
    splitPair a b (joinPair a b ls) = ls := by
  induction ls with
  | nil => exact absurd rfl hne
  | cons l ls ih =>
    have hl := h l mem_cons_self
    cases ls with
    | nil => exact splitPair_line hl
    | cons l' ls =>
      rw [joinPair, splitPair_line_append hl, ih (cons_ne_nil _ _) fun x hx => h x (mem_cons_of_mem _ hx)]

omit [DecidableEq α] in
/-- The last line's end is the only difference between the two ways to write. -/
theorem endPair_eq_joinPair {ls : List (List α)} (hne : ls ≠ []) :
    endPair a b ls = joinPair a b ls ++ [a, b] := by
  induction ls with
  | nil => exact absurd rfl hne
  | cons l ls ih =>
    cases ls with
    | nil => exact flatMap_singleton _ _
    | cons l' ls =>
      rw [joinPair, endPair, flatMap_cons, ← endPair, ih (cons_ne_nil _ _)]
      simp only [append_assoc, cons_append, nil_append]

/-- A map that sends elements to lists and only the pair to the other pair
commutes with the cut. -/
theorem map_splitPair {a' b' : β} {f : α → List β} (hf : f a = [a']) (hg : f b = [b'])
    (hne : ∀ c, f c ≠ []) (ha : ∀ c, a' ∈ f c → c = a) (hb : ∀ c, b' ∈ f c → c = b) (cs : List α) :
    (splitPair a b cs).map (·.flatMap f) = splitPair a' b' (cs.flatMap f) := by
  induction hn : cs.length using Nat.strongRecOn generalizing cs with
  | ind n ih =>
  cases cs with
  | nil => rfl
  | cons c cs =>
    by_cases hpair : c = a ∧ cs.head? = some b
    · obtain ⟨hc, hhead⟩ := hpair
      obtain ⟨cs', rfl⟩ := List.head?_eq_some_iff.mp hhead
      have hlt : cs'.length < n := by simp only [length_cons] at hn; omega
      rw [hc, splitPair_pair, map_cons, ih _ hlt cs' rfl, flatMap_cons, flatMap_cons, hf, hg]
      exact (splitPair_pair _).symm
    · have hmap : ∀ ls : List (List α), (prepend [c] ls).map (·.flatMap f) = prepend (f c) (ls.map (·.flatMap f)) := by
        intro ls
        cases ls with
        | nil => exact congrArg (fun x => [x]) (flatMap_singleton f c)
        | cons l ls => rfl
      have hlt : cs.length < n := by simp only [length_cons] at hn; omega
      rw [splitPair_cons fun hc hhead => hpair ⟨hc, hhead⟩, hmap, ih _ hlt cs rfl, flatMap_cons]
      by_cases hc : c = a
      · -- a first half alone: what follows does not start with the second half
        rw [hc, hf]
        refine (splitPair_cons fun _ hhead => ?_).symm
        cases cs with
        | nil => cases hhead
        | cons d cs =>
          obtain ⟨e, es, he⟩ := exists_cons_of_ne_nil (hne d)
          rw [flatMap_cons, he, cons_append, List.head?_cons, Option.some.injEq] at hhead
          have hd : d = b := hb d (by rw [he, hhead]; exact mem_cons_self)
          exact hpair ⟨hc, congrArg some hd⟩
      · exact (splitPair_append (fun hmem => hc (ha c hmem)) _).symm

end

end Wrongsv
