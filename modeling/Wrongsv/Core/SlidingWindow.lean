import Mathlib.Data.List.Basic
import Mathlib.Logic.Relation

/-!
# Sliding windows

One direction of a reliable transport, over any kind of payload. The sender
numbers payloads `0, 1, 2, …` and keeps each one until it learns that the
receiver has it. The receiver stores what arrives early and moves on when
the next number is there.

The wire is not part of the state. What can be on it is determined by what
the two sides know, and that only grows: a payload under its number, the
number of a payload that has been received, a number up to which all have
been (`Link.Allows`, `Steps.allows`). So it does not matter how often a
message is lost, repeated, delayed or overtaken.

`Step.safe` is the result a protocol inherits by showing that its moves are
steps of this machine.
-/
namespace Wrongsv.SlidingWindow

variable {α : Type}

structure Link (α : Type) where
  /-- every payload numbered so far -/
  log : List α
  /-- the numbers the sender still keeps -/
  unacked : List Nat
  /-- the first number the receiver is waiting for -/
  next : Nat
  /-- what the receiver has stored beyond it -/
  early : Nat → Option α

inductive Msg (α : Type) where
  | data (n : Nat) (x : α)
  | ack (n : Nat)
  | upTo (n : Nat)

def Link.Received (l : Link α) (n : Nat) : Prop := n < l.next ∨ (l.early n).isSome = true

/-- The messages that can be on the wire. -/
def Link.Allows (l : Link α) : Msg α → Prop
  | .data n x => l.log[n]? = some x
  | .ack n => l.Received n
  | .upTo n => n ≤ l.next

/-- A link on which nothing has happened. -/
def Link.idle : Link α := ⟨[], [], 0, fun _ => none⟩

inductive Step : Link α → Link α → Prop where
  /-- the sender numbers a payload -/
  | number (l : Link α) (x : α) :
      Step l { l with log := l.log ++ [x], unacked := l.unacked ++ [l.log.length] }
  /-- a payload arrives that the receiver does not have -/
  | store (l : Link α) (n : Nat) (x : α) (data : l.Allows (.data n x)) :
      Step l { l with early := fun i => if i = n then some x else l.early i }
  /-- the receiver takes the next payload out of its store -/
  | advance (l : Link α) (x : α) (stored : l.early l.next = some x) :
      Step l { l with next := l.next + 1, early := fun i => if i = l.next then none else l.early i }
  /-- the sender lets go of payloads that were acknowledged -/
  | release (l : Link α) (keep : List Nat) (acked : ∀ n ∈ l.unacked, n ∈ keep ∨ l.Received n) :
      Step l { l with unacked := keep }

abbrev Steps : Link α → Link α → Prop := Relation.ReflTransGen Step

variable {l l' : Link α}

theorem Steps.of_eq (h : l' = l) : Steps l l' := by
  rw [h]

/-- Everything stored is what was numbered, and nothing numbered is lost. -/
structure Link.Safe (l : Link α) : Prop where
  next_le : l.next ≤ l.log.length
  early_eq : ∀ n x, l.early n = some x → l.log[n]? = some x
  kept : ∀ n < l.log.length, n ∈ l.unacked ∨ l.Received n

theorem safe_idle : (Link.idle : Link α).Safe :=
  ⟨Nat.le_refl 0, (fun _ _ h => by cases h), fun _ h => absurd h (Nat.not_lt_zero _)⟩

theorem Step.received (h : Step l l') {n : Nat} (hn : l.Received n) : l'.Received n := by
  cases h with
  | number x => exact hn
  | store m x data =>
    rcases hn with hlt | hs
    · exact .inl hlt
    · right
      show (if n = m then some x else l.early n).isSome = true
      split
      · rfl
      · exact hs
  | advance x stored =>
    rcases hn with hlt | hs
    · exact .inl (Nat.lt_succ_of_lt hlt)
    · by_cases hm : n = l.next
      · exact .inl (by rw [hm]; exact Nat.lt_succ_self _)
      · right
        show (if n = l.next then none else l.early n).isSome = true
        rw [if_neg hm]
        exact hs
  | release keep acked => exact hn

/-- **What was sent stays true**, so old messages do no harm. -/
theorem Step.allows (h : Step l l') {m : Msg α} (hm : l.Allows m) : l'.Allows m := by
  cases m with
  | data n x =>
    cases h with
    | number y =>
      have hlt : n < l.log.length := (List.getElem?_eq_some_iff.mp hm).1
      show (l.log ++ [y])[n]? = some x
      rw [List.getElem?_append_left hlt]
      exact hm
    | store | advance | release => exact hm
  | ack n => exact h.received hm
  | upTo n =>
    cases h with
    | advance => exact Nat.le_succ_of_le hm
    | number | store | release => exact hm

theorem Step.safe (h : Step l l') (hs : l.Safe) : l'.Safe := by
  have hr := fun {n : Nat} (hn : l.Received n) => h.received hn
  obtain ⟨hle, heq, hkept⟩ := hs
  cases h with
  | number x =>
    refine ⟨?_, fun n y hn => ?_, fun n hn => ?_⟩
    · simp only [List.length_append]
      omega
    · exact (Step.number l x).allows (m := .data n y) (heq n y hn)
    · simp only [List.length_append, List.length_singleton] at hn
      by_cases hl : n < l.log.length
      · rcases hkept n hl with hk | hk
        · exact .inl (List.mem_append_left _ hk)
        · exact .inr hk
      · exact .inl (List.mem_append_right _ (by simp; omega))
  | store m x data =>
    refine ⟨hle, fun n y hn => ?_, fun n hn => (hkept n hn).imp_right hr⟩
    simp only at hn
    split at hn
    · rename_i hnm
      cases hn
      rw [hnm]
      exact data
    · exact heq n y hn
  | advance x stored =>
    have hlt : l.next < l.log.length := (List.getElem?_eq_some_iff.mp (heq _ _ stored)).1
    refine ⟨hlt, fun n y hn => ?_, fun n hn => (hkept n hn).imp_right hr⟩
    simp only at hn
    split at hn
    · cases hn
    · exact heq n y hn
  | release keep acked =>
    refine ⟨hle, heq, fun n hn => ?_⟩
    rcases hkept n hn with hk | hk
    · exact acked n hk
    · exact .inr hk

section
variable {l l' : Link α}

theorem Steps.allows (h : Steps l l') {m : Msg α} (hm : l.Allows m) : l'.Allows m := by
  induction h with
  | refl => exact hm
  | tail _ hs ih => exact hs.allows ih

end

end Wrongsv.SlidingWindow
