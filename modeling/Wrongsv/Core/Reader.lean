import Wrongsv.Core.Schedule

/-!
# Decoders on a stream that may block

A decoder that calls `read_exact` several times and hands every error on. An
error does not put back what was read before it.

Each `read_exact` either finds all its bytes before the next `WouldBlock`, or
takes what is there and fails. So a decoder made of them (`Exact`) is settled
by the bytes in front of the `WouldBlock` (`Settles`), or takes all of them and
fails (`Starves`). In particular a decoder that needs the bytes `c` loses every
part of them that a `WouldBlock` separates from the rest (`Exact.starves`).
-/
namespace Wrongsv
open List

abbrev Reader (ε α : Type) := ExceptT ε (StateM Schedule) α

namespace Reader

variable {ε α β : Type}

/-- `read_exact`, with the errors for a `WouldBlock` and for the end of the stream. -/
def readExact (block eof : ε) (n : Nat) : Reader ε Bytes := fun s =>
  match s.readExact n with
  | (.done bytes, s) => (.ok bytes, s)
  | (.block _, s) => (.error block, s)
  | (.eof _, s) => (.error eof, s)

/-- In front of anything the bytes `c` give the result `r`, and `left` of them stay. -/
def Settles (p : Reader ε α) (c : Bytes) (r : Except ε α) (left : Bytes) : Prop :=
  ∀ rest later, p ⟨c ++ rest, later⟩ = (r, ⟨left ++ rest, later⟩)

/-- The bytes `c` are too few: they are gone with the error. -/
structure Starves (block eof : ε) (p : Reader ε α) (c : Bytes) : Prop where
  block : ∀ next later, p ⟨c, next :: later⟩ = (.error block, ⟨next, later⟩)
  eof : p ⟨c, []⟩ = (.error eof, ⟨[], []⟩)

def Exact (block eof : ε) (p : Reader ε α) : Prop :=
  ∀ c, (∃ r left, p.Settles c r left) ∨ Starves block eof p c

/-! ## Sequencing -/

theorem bind_apply (p : Reader ε α) (f : α → Reader ε β) (s : Schedule) :
    (p >>= f) s = match p s with
      | (.ok a, s') => f a s'
      | (.error e, s') => (.error e, s') := by
  show (match (p s).1 with
      | .ok a => f a
      | .error e => fun s' => (.error e, s')) (p s).2 = _
  rcases p s with ⟨_ | _, _⟩ <;> rfl

theorem settles_pure (a : α) (c : Bytes) : Settles (pure a : Reader ε α) c (.ok a) c :=
  fun _ _ => rfl

theorem settles_throw (e : ε) (c : Bytes) : Settles (throw e : Reader ε α) c (.error e) c :=
  fun _ _ => rfl

variable {p : Reader ε α} {f : α → Reader ε β}

theorem Settles.bind {c mid left : Bytes} {a : α} {r : Except ε β}
    (hp : p.Settles c (.ok a) mid) (hf : (f a).Settles mid r left) : Settles (p >>= f) c r left := by
  intro rest later
  rw [bind_apply, hp]
  exact hf rest later

theorem Settles.bind_error {c left : Bytes} {e : ε}
    (hp : p.Settles c (.error e) left) : Settles (p >>= f) c (.error e) left := by
  intro rest later
  rw [bind_apply, hp]

section
variable {block eof : ε}

theorem Starves.bind {c : Bytes} (hp : Starves block eof p c) : Starves block eof (p >>= f) c :=
  ⟨fun next later => by rw [bind_apply, hp.block], by rw [bind_apply, hp.eof]⟩

theorem exact_pure (a : α) : Exact block eof (pure a : Reader ε α) :=
  fun c => .inl ⟨_, _, settles_pure a c⟩

theorem exact_throw (e : ε) : Exact block eof (throw e : Reader ε α) :=
  fun c => .inl ⟨_, _, settles_throw e c⟩

theorem exact_bind (hp : Exact block eof p) (hf : ∀ a, Exact block eof (f a)) :
    Exact block eof (p >>= f) := by
  intro c
  rcases hp c with ⟨r, mid, h⟩ | h
  · cases r with
    | error e => exact .inl ⟨_, _, h.bind_error⟩
    | ok a =>
      rcases hf a mid with ⟨r', left, h'⟩ | h'
      · exact .inl ⟨r', left, h.bind h'⟩
      · have hmid : ∀ later, p ⟨c, later⟩ = (.ok a, ⟨mid, later⟩) := by
          intro later
          have := h [] later
          rwa [append_nil, append_nil] at this
        exact .inr ⟨fun next later => by rw [bind_apply, hmid]; exact h'.block next later,
          by rw [bind_apply, hmid]; exact h'.eof⟩
  · exact .inr h.bind

/-! ## Reads -/

theorem settles_readExact (a left : Bytes) :
    Settles (readExact block eof a.length) (a ++ left) (.ok a) left := by
  intro rest later
  rw [readExact, append_assoc, Schedule.readExact_append]

theorem exact_readExact (n : Nat) : Exact block eof (readExact block eof n) := by
  intro c
  by_cases h : n ≤ c.length
  · have hlen : (c.take n).length = n := by rw [length_take, Nat.min_eq_left h]
    have hs : Settles (readExact block eof _) _ _ _ := settles_readExact (c.take n) (c.drop n)
    rw [hlen, take_append_drop] at hs
    exact .inl ⟨_, _, hs⟩
  · have hlt := Nat.not_le.mp h
    refine .inr ⟨fun next later => ?_, ?_⟩
    · rw [readExact, (Schedule.readExact_block (s := ⟨c, next :: later⟩) hlt rfl 0).1]
    · rw [readExact, Schedule.readExact_eof (s := ⟨c, []⟩) hlt rfl]

/-! ## A part of what is needed -/

/-- **Partial input is lost.** If all of `c` is needed, what is there of it when
a `WouldBlock` comes is taken and forgotten. -/
theorem Exact.starves (hp : Exact block eof p) {got missing : Bytes} {r : Except ε α}
    (hc : p.Settles (got ++ missing) r []) (hm : missing ≠ []) : Starves block eof p got := by
  rcases hp got with ⟨r', left, h⟩ | h
  · have h1 := hc [] []
    have h2 := h missing []
    rw [append_nil, h2, Prod.mk.injEq, Schedule.mk.injEq] at h1
    exact absurd (List.append_eq_nil_iff.mp h1.2.1).2 hm
  · exact h

end

/-! ## What is left -/

/-- Whatever the result, what is left is the end of what was there. -/
def Advances (p : Reader ε α) : Prop := ∀ s, ∃ taken, s.bytes = taken ++ (p s).2.bytes

theorem advances_pure (a : α) : Advances (pure a : Reader ε α) := fun _ => ⟨[], rfl⟩

theorem advances_readExact (block eof : ε) (n : Nat) : Advances (readExact block eof n) := by
  intro s
  unfold readExact Schedule.readExact
  by_cases h : n ≤ s.avail.length
  · rw [if_pos h]
    refine ⟨s.avail.take n, ?_⟩
    rw [Schedule.bytes, Schedule.bytes, ← append_assoc, take_append_drop]
  · rw [if_neg h]
    refine ⟨s.avail, ?_⟩
    cases hl : s.later with
    | nil =>
      rw [Schedule.bytes, hl]
      rfl
    | cons next later =>
      rw [Schedule.bytes, hl]
      rfl

theorem Advances.bind (hp : p.Advances) (hf : ∀ a, (f a).Advances) : (p >>= f).Advances := by
  intro s
  obtain ⟨first, hfirst⟩ := hp s
  rw [bind_apply]
  rcases hs : p s with ⟨e | a, s'⟩
  · rw [hs] at hfirst
    exact ⟨first, hfirst⟩
  · rw [hs] at hfirst
    obtain ⟨second, hsecond⟩ := hf a s'
    exact ⟨first ++ second, by rw [hfirst, hsecond, append_assoc]⟩

/-- Behind the error for the end of the stream nothing is left. -/
def EndsWith (eof : ε) (p : Reader ε α) : Prop := ∀ s, (p s).1 = .error eof → (p s).2 = ⟨[], []⟩

theorem endsWith_pure (eof : ε) (a : α) : EndsWith eof (pure a) := fun _ h => (nomatch h)

theorem endsWith_readExact {block eof : ε} (hne : block ≠ eof) (n : Nat) :
    EndsWith eof (readExact block eof n) := by
  intro s
  unfold readExact Schedule.readExact
  by_cases h : n ≤ s.avail.length
  · simp [h]
  · cases s.later <;> simp [h, hne]

theorem EndsWith.bind {eof : ε} (hp : EndsWith eof p) (hf : ∀ a, EndsWith eof (f a)) :
    EndsWith eof (p >>= f) := by
  intro s
  rw [bind_apply]
  rcases hs : p s with ⟨e | a, s'⟩
  · intro h
    have hend := hp s
    rw [hs] at hend
    exact hend (congrArg _ (Except.error.inj h))
  · exact hf a s'

end Reader

end Wrongsv
