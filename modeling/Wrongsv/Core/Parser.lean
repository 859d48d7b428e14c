import Wrongsv.Core

/-!
# Parsers over a byte stream

A decoder that takes one field after the other off a reader with `read_exact`
is a state monad over the bytes that are left, with errors.

Such a decoder looks at nothing but the bytes it takes (`Takes`): on any other
stream that starts with them it gives the same value. The property is closed
under sequencing, and the lower bound on the number of taken bytes adds up, so
both hold of whole decoders. `Takes.cut` is what follows for a stream of which
only a first part is there: that part has all bytes that are taken, or the
decoder fails on it.

`Reads p c a` is the other direction, for round trips: in front of anything,
the bytes `c` are read as `a`. `many p` repeats a decoder until it fails.
`Gives p P` says what every value a decoder returns has in common.
-/
namespace Wrongsv
open List

abbrev Parser (ε α : Type) := StateT Bytes (Except ε) α

namespace Parser

variable {ε ε' α β : Type}

def readExact (eof : ε) (n : Nat) : Parser ε { c : Bytes // c.length = n } := fun b =>
  if h : n ≤ b.length then .ok (⟨b.take n, by rw [length_take, Nat.min_eq_left h]⟩, b.drop n)
  else .error eof

def readU8 (eof : ε) : Parser ε UInt8
  | a :: rest => .ok (a, rest)
  | [] => .error eof

def mapError (f : ε → ε') (p : Parser ε α) : Parser ε' α := fun b =>
  match p b with
  | .ok r => .ok r
  | .error e => .error (f e)

/-- A value taken off the front of a stream depends on the taken bytes only,
of which there are at least `k`. -/
def Takes (k : Nat) (p : Parser ε α) : Prop :=
  ∀ b a r, p b = .ok (a, r) → ∃ c, k ≤ c.length ∧ b = c ++ r ∧ ∀ t, p (c ++ t) = .ok (a, t)

/-! ## Sequencing -/

variable {p : Parser ε α} {f : α → Parser ε β} {k : Nat} {a : α} {b r c : Bytes}

theorem Takes.mono {m : Nat} (hp : p.Takes k) (h : m ≤ k) : p.Takes m := by
  intro b a r hb
  obtain ⟨c, hk, hc⟩ := hp b a r hb
  exact ⟨c, Nat.le_trans h hk, hc⟩

theorem takes_pure (a : α) : Takes 0 (pure a : Parser ε α) := by
  intro b a' r h
  cases h
  exact ⟨[], Nat.zero_le _, rfl, fun t => rfl⟩

theorem takes_throw (k : Nat) (e : ε) : Takes k (throw e : Parser ε α) := by
  intro b a r h
  cases h

theorem bind_apply (p : Parser ε α) (f : α → Parser ε β) (b : Bytes) :
    (p >>= f) b = match p b with
      | .ok (a, r) => f a r
      | .error e => .error e := by
  show (p b >>= fun q => f q.1 q.2) = _
  cases p b <;> rfl

theorem takes_bind {m : Nat} (hp : p.Takes k) (hf : ∀ a, (f a).Takes m) :
    Takes (k + m) (p >>= f) := by
  intro b y r h
  rw [bind_apply] at h
  cases hb : p b with
  | error e => rw [hb] at h; cases h
  | ok q =>
    rw [hb] at h
    obtain ⟨c₁, hk, rfl, hc₁⟩ := hp b q.1 q.2 hb
    obtain ⟨c₂, hm, hr, hc₂⟩ := hf q.1 q.2 y r h
    grind [bind_apply]

/-! ## Reads -/

theorem takes_readExact (eof : ε) (n : Nat) : Takes n (readExact eof n) := by
  intro b a r h
  grind [readExact, length_take, Nat.min_eq_left, Nat.le_of_eq, take_append_drop, length_append,
      take_left', drop_left']

theorem takes_readU8 (eof : ε) : Takes 1 (readU8 eof) := by
  intro b a r h
  cases b with
  | nil => cases h
  | cons x b => cases h; exact ⟨[a], Nat.le_refl 1, rfl, fun t => rfl⟩

theorem takes_mapError (f : ε → ε') (hp : p.Takes k) : Takes k (mapError f p) := by
  intro b a r h
  unfold mapError at h
  split at h
  · rename_i q hq
    cases h
    obtain ⟨c, hk, hb, hc⟩ := hp b a r hq
    exact ⟨c, hk, hb, fun t => by unfold mapError; rw [hc]⟩
  · cases h

/-! ## Streams -/

/-- What is taken off the front is a prefix of at least `k` bytes. -/
theorem Takes.length (hp : p.Takes k) (h : p b = .ok (a, r)) : k + r.length ≤ b.length := by
  obtain ⟨c, hk, rfl, -⟩ := hp b a r h
  rw [length_append]
  omega

theorem Takes.append (hp : p.Takes k) (h : p b = .ok (a, r)) (t : Bytes) :
    p (b ++ t) = .ok (a, r ++ t) := by
  obtain ⟨c, -, rfl, hc⟩ := hp b a r h
  rw [append_assoc]
  exact hc _

/-- **The first part of a stream.** It has all bytes that are taken, and what
is left of it is what is left of the stream up to the cut; or the decoder
fails on it. -/
theorem Takes.cut (hp : p.Takes k) {first later r : Bytes} (h : p (first ++ later) = .ok (a, r)) :
    (later.length ≤ r.length ∧ ∃ r', p first = .ok (a, r') ∧ r = r' ++ later) ∨
      (r.length < later.length ∧ ∃ e, p first = .error e) := by
  cases hf : p first with
  | ok q =>
    have h' := hp.append hf later
    grind
  | error e =>
    refine .inr ⟨?_, e, rfl⟩
    -- otherwise the taken bytes are all in front of the cut
    by_contra hle
    obtain ⟨c, -, hb, hc⟩ := hp _ a r h
    have hlen := congrArg List.length hb
    rw [length_append, length_append] at hlen
    have hstart : c <+: first ++ later := ⟨r, hb.symm⟩
    obtain ⟨r', rfl⟩ :=
      prefix_of_prefix_length_le hstart (prefix_append first later) (by omega)
    rw [hc] at hf
    cases hf

/-! ## Values -/

/-- Every value of the decoder satisfies `P`. -/
def Gives (p : Parser ε α) (P : α → Prop) : Prop := ∀ b a r, p b = .ok (a, r) → P a

theorem gives_pure {P : α → Prop} (h : P a) : Gives (pure a : Parser ε α) P := by
  intro b a' r hb
  cases hb
  exact h

theorem gives_throw (e : ε) (P : α → Prop) : Gives (throw e : Parser ε α) P := by
  intro b a r hb
  cases hb

theorem gives_bind (p : Parser ε α) {P : β → Prop} (hf : ∀ a, (f a).Gives P) :
    Gives (p >>= f) P := by
  intro b y r h
  rw [bind_apply] at h
  cases hb : p b with
  | error e => rw [hb] at h; cases h
  | ok q =>
    rw [hb] at h
    exact hf q.1 q.2 y r h

/-! ## Reading back -/

/-- The bytes `c` are read as `a`, whatever follows. -/
def Reads (p : Parser ε α) (c : Bytes) (a : α) : Prop := ∀ t, p (c ++ t) = .ok (a, t)

/-- Behind the bytes of its first part, a decoder is its second part. -/
theorem Reads.bind_append (hp : p.Reads c a) (b : Bytes) : (p >>= f) (c ++ b) = f a b := by
  rw [bind_apply, hp]

theorem Reads.bind {c₁ c₂ : Bytes} {y : β}
    (hp : p.Reads c₁ a) (hf : (f a).Reads c₂ y) : Reads (p >>= f) (c₁ ++ c₂) y := by
  intro t
  rw [append_assoc, hp.bind_append]
  exact hf t

theorem reads_readU8 (eof : ε) (a : UInt8) : Reads (readU8 eof) [a] a := fun _ => rfl

theorem reads_readExact (eof : ε) {n : Nat} (c : { c : Bytes // c.length = n }) :
    Reads (readExact eof n) c.val c := by
  intro t
  grind [readExact]

theorem readExact_ok {eof : ε} {n : Nat} {c : { c : Bytes // c.length = n }}
    (h : readExact eof n b = .ok (c, r)) : b = c.val ++ r := by
  grind [readExact, take_append_drop]

theorem Reads.mapError (f : ε → ε') (hp : p.Reads c a) : Reads (mapError f p) c a := by
  intro t
  unfold Parser.mapError
  rw [hp]

/-! ## Repetition -/

/-- `while let Ok(a) = p(reader)`; the fuel bounds the passes. -/
def many.go (p : Parser ε α) : Nat → Bytes → List α
  | 0, _ => []
  | fuel + 1, b =>
    match p b with
    | .ok (a, r) => a :: go p fuel r
    | .error _ => []

/-- For a decoder that takes at least one byte. -/
def many (p : Parser ε α) (b : Bytes) : List α := many.go p b.length b

theorem many_go_fuel (hp : p.Takes 1) (fuel : Nat) : ∀ (fuel' : Nat) (b : Bytes),
    b.length ≤ fuel → b.length ≤ fuel' → many.go p fuel b = many.go p fuel' b := by
  have hnil : ∀ (n : Nat) (b : Bytes), b.length ≤ 0 → many.go p n b = [] := by
    intro n b hb
    cases n with
    | zero => rfl
    | succ n =>
      rw [many.go]
      split
      · rename_i a r h
        have := hp.length h
        omega
      · rfl
  induction fuel with
  | zero => intro fuel' b h _; rw [hnil _ b h, hnil _ b h]
  | succ fuel ih =>
    intro fuel' b h h'
    cases fuel' with
    | zero => rw [hnil _ b h', hnil _ b h']
    | succ fuel' =>
      rw [many.go, many.go]
      split
      · rename_i a r hb
        have := hp.length hb
        rw [ih fuel' r (by omega) (by omega)]
      · rfl

theorem many_eq (hp : p.Takes 1) (b : Bytes) :
    many p b = match p b with
      | .ok (a, r) => a :: many p r
      | .error _ => [] := by
  unfold many
  rw [many_go_fuel hp b.length (b.length + 1) b (Nat.le_refl _) (Nat.le_succ _), many.go]
  split
  · rename_i a r hb
    have := hp.length hb
    grind [many_go_fuel]
  · rfl

theorem Reads.many_append (hp : p.Takes 1) (h : p.Reads c a) (t : Bytes) :
    many p (c ++ t) = a :: many p t := by
  rw [many_eq hp, h]

theorem many_flatMap (hp : p.Takes 1) (encode : α → Bytes) (t : Bytes) : ∀ (as : List α),
    (∀ a ∈ as, p.Reads (encode a) a) → many p (as.flatMap encode ++ t) = as ++ many p t
  | [], _ => rfl
  | a :: as, h => by
    rw [flatMap_cons, append_assoc, (h a mem_cons_self).many_append hp,
      many_flatMap hp encode t as (fun a' ha => h a' (mem_cons_of_mem _ ha)), cons_append]

end Parser

end Wrongsv
