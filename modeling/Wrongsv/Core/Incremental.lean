import Wrongsv.Core.Parser

/-!
# Decoders on a growing buffer

A server that does not know how long a header is runs its decoder on the bytes
received so far, and again on all of them when more have come. Such a decoder
fails in two ways: the bytes are too few (`Stop.incomplete`), or they are wrong
(`Stop.rejected`).

The loop gives the same answer for every way the stream is cut into reads when
the decoder never takes an answer back (`Stable`), and no header runs into the
loop's size limit when so many bytes always give an answer (`Within`). Both are
closed under sequencing. `awaitDecided_spec` is the statement about the loop.
-/
namespace Wrongsv
open List

/-- Why a decoder gives no value for the bytes received so far. -/
inductive Stop (ε : Type) where
  | incomplete
  | rejected (e : ε)
  deriving DecidableEq, Repr

namespace Parser

/-- What one `read` into a buffer of `size` bytes brings. -/
inductive ReadStep (size : Nat) where
  | data (bytes : { c : Bytes // 0 < c.length ∧ c.length ≤ size })
  | wouldBlock
  deriving DecidableEq, Repr

def ReadStep.bytes {size : Nat} : ReadStep size → Bytes
  | .data c => c.val
  | .wouldBlock => []

def streamOf {size : Nat} (pulls : List (ReadStep size)) : Bytes := pulls.flatMap ReadStep.bytes

variable {ε α β : Type}

/-- An answer is not taken back when more bytes follow. -/
structure Stable (p : Parser (Stop ε) α) : Prop where
  takes : p.Takes 0
  rejects : ∀ {b : Bytes} {e : ε}, p b = .error (.rejected e) →
    ∀ t, p (b ++ t) = .error (.rejected e)

/-- With `n` bytes there is an answer, and a value takes no more of them. -/
structure Within (n : Nat) (p : Parser (Stop ε) α) : Prop where
  decided : ∀ {b : Bytes}, n ≤ b.length → p b ≠ .error .incomplete
  taken : ∀ {b r : Bytes} {a : α}, p b = .ok (a, r) → b.length ≤ r.length + n

/-! ## Sequencing -/

theorem stable_pure (a : α) : Stable (pure a : Parser (Stop ε) α) :=
  ⟨takes_pure a, fun h => by cases h⟩

theorem stable_throw (e : Stop ε) : Stable (throw e : Parser (Stop ε) α) :=
  ⟨takes_throw 0 e, fun h _ => h⟩

variable {p : Parser (Stop ε) α}

theorem stable_bind {f : α → Parser (Stop ε) β} (hp : p.Stable)
    (hf : ∀ a, (f a).Stable) : Stable (p >>= f) := by
  refine ⟨takes_bind hp.takes fun a => (hf a).takes, fun {b e} h t => ?_⟩
  rw [bind_apply] at h ⊢
  cases hb : p b with
  | error s =>
    rw [hb] at h
    cases h
    rw [hp.rejects hb]
  | ok q =>
    rw [hb] at h
    rw [hp.takes.append hb]
    exact (hf q.1).rejects h t

/-- A decoder asks for more as long as a part is missing of what it reads. -/
theorem Stable.waits (hp : p.Stable) {c : Bytes} {a : α} (hread : p.Reads c a) {k : Nat}
    (hk : k < c.length) : p (c.take k) = .error .incomplete := by
  have hwhole := hread []
  rw [append_nil, ← take_append_drop k c] at hwhole
  cases h : p (c.take k) with
  | ok q =>
    -- an answer here would leave the missing part behind the whole
    rw [hp.takes.append h] at hwhole
    have hlen := congrArg List.length (congrArg Prod.snd (Except.ok.inj hwhole))
    simp only [length_append, length_drop, length_nil] at hlen
    omega
  | error s =>
    cases s with
    | incomplete => rfl
    | rejected e => rw [hp.rejects h] at hwhole; cases hwhole

theorem Within.mono {n m : Nat} (hp : p.Within n) (h : n ≤ m) : p.Within m := by
  refine ⟨fun hm => hp.decided (by omega), fun hb => ?_⟩
  have := hp.taken hb
  omega

theorem within_pure (a : α) : Within 0 (pure a : Parser (Stop ε) α) := by
  refine ⟨fun _ h => (nomatch h), fun {b r a'} h => ?_⟩
  cases h
  exact Nat.le_refl _

theorem within_reject (n : Nat) (e : ε) : Within n (throw (.rejected e) : Parser (Stop ε) α) :=
  ⟨fun _ h => (nomatch h), fun h => (nomatch h)⟩

theorem within_bind {n m : Nat} {f : α → Parser (Stop ε) β}
    (hp : p.Within n) (hf : ∀ a, (f a).Within m) : Within (n + m) (p >>= f) := by
  refine ⟨fun {b} hlen h => ?_, fun {b r y} h => ?_⟩
  · rw [bind_apply] at h
    cases hb : p b with
    | error s =>
      rw [hb] at h
      cases h
      exact hp.decided (by omega) hb
    | ok q =>
      rw [hb] at h
      have := hp.taken hb
      exact (hf q.1).decided (by omega) h
  · rw [bind_apply] at h
    cases hb : p b with
    | error s => rw [hb] at h; cases h
    | ok q =>
      rw [hb] at h
      have h₁ := hp.taken hb
      have h₂ := (hf q.1).taken h
      omega

section
variable {n : Nat} {c : Prop} [Decidable c] {p q : Parser (Stop ε) α}

theorem stable_ite (hp : p.Stable) (hq : q.Stable) : Stable (if c then p else q) := by
  split
  · exact hp
  · exact hq

theorem within_ite (hp : p.Within n) (hq : q.Within n) : Within n (if c then p else q) := by
  split
  · exact hp
  · exact hq

end

/-! ## Reads -/

/-- `readExact` of `n` bytes of which the first `m` are checked as they come,
before it is known whether the others are there. -/
def readChecked (good : UInt8 → Bool) (e : ε) (m n : Nat) :
    Parser (Stop ε) { c : Bytes // c.length = n } :=
  fun b => if (b.take m).any (fun x => !good x) then .error (.rejected e) else readExact .incomplete n b

theorem stable_readExact (n : Nat) :
    Stable (readExact .incomplete n : Parser (Stop ε) { c : Bytes // c.length = n }) := by
  refine ⟨(takes_readExact _ n).mono (Nat.zero_le n), fun h => ?_⟩
  unfold readExact at h
  split at h <;> cases h

theorem stable_readU8 : Stable (readU8 .incomplete : Parser (Stop ε) UInt8) := by
  refine ⟨(takes_readU8 _).mono (Nat.zero_le 1), fun {b e} h => ?_⟩
  cases b <;> cases h

theorem stable_readChecked (good : UInt8 → Bool) (e : ε) {m n : Nat} (h : m ≤ n) :
    Stable (readChecked good e m n) := by
  constructor
  · intro b a r hb
    unfold readChecked at hb
    split at hb
    · cases hb
    obtain ⟨c, hk, rfl, hc⟩ := takes_readExact _ n b a r hb
    refine ⟨c, Nat.zero_le _, rfl, fun t => ?_⟩
    -- the checked bytes are among the taken ones
    grind [readChecked]
  all_goals grind [readChecked, readExact, take_append]

theorem within_readExact (n : Nat) :
    Within n (readExact .incomplete n : Parser (Stop ε) { c : Bytes // c.length = n }) := by
  refine ⟨fun {b} hlen h => ?_, fun {b r a} h => ?_⟩
  all_goals grind [readExact]

theorem within_readU8 : Within 1 (readU8 .incomplete : Parser (Stop ε) UInt8) := by
  refine ⟨fun {b} hlen h => ?_, fun {b r a} h => ?_⟩
  · cases b with
    | nil => simp only [length_nil] at hlen; omega
    | cons x b => cases h
  · cases b with
    | nil => cases h
    | cons x b => cases h; simp only [length_cons]; omega

theorem within_readChecked (good : UInt8 → Bool) (e : ε) (m n : Nat) :
    Within n (readChecked good e m n) := by
  refine ⟨fun {b} hlen h => ?_, fun {b r a} h => ?_⟩ <;> unfold readChecked at h <;> split at h
  · cases h
  · exact (within_readExact n).decided hlen h
  · cases h
  · exact (within_readExact n).taken h

/-! ## The loop -/

variable {size : Nat}

/-- The decoder is run on all bytes received so far before every `read`.
`ending` is the error for the end of the stream. The reads that were not made
are returned with the result. -/
def awaitDecided (p : Parser (Stop ε) α) (limit : Nat) (tooLarge ending : ε) (data : Bytes)
    (pulls : List (ReadStep size)) : Except (ε × Bytes) (α × Bytes) × List (ReadStep size) :=
  match p data with
  | .ok r => (.ok r, pulls)
  | .error (.rejected e) => (.error (e, data), pulls)
  | .error .incomplete =>
    if limit ≤ data.length then (.error (tooLarge, data), pulls)
    else match pulls with
      | [] => (.error (ending, data), [])
      | .wouldBlock :: pulls => awaitDecided p limit tooLarge ending data pulls
      | .data c :: pulls => awaitDecided p limit tooLarge ending (data ++ c.val) pulls

/-- What the loop gives when the decoder's answer for the whole `stream` is
`answer`: the same value or error, and with the reads that were not made the
bytes add up to those of the stream. -/
def Answers (ending : ε) (stream : Bytes) (answer : Except (Stop ε) (α × Bytes))
    (result : Except (ε × Bytes) (α × Bytes) × List (ReadStep size)) : Prop :=
  match answer with
  | .ok (a, rest) => ∃ received unread, result = (.ok (a, received), unread) ∧ rest = received ++ streamOf unread
  | .error (.rejected e) => ∃ received unread,
      result = (.error (e, received), unread) ∧ stream = received ++ streamOf unread
  | .error .incomplete => result = (.error (ending, stream), [])

/-- **The reads do not matter.** The loop answers what the decoder says about
the whole stream, however it is cut. -/
theorem awaitDecided_spec {n limit : Nat} (hp : p.Stable) (hn : p.Within n)
    (hlimit : n ≤ limit) (tooLarge ending : ε) (pulls : List (ReadStep size)) (data : Bytes) :
    Answers ending (data ++ streamOf pulls) (p (data ++ streamOf pulls))
      (awaitDecided p limit tooLarge ending data pulls) := by
  fun_induction awaitDecided p limit tooLarge ending data pulls with
  -- an answer for the bytes so far is the answer for the stream
  | case1 pulls data q hd => rw [hp.takes.append hd]; exact ⟨q.2, pulls, rfl, rfl⟩
  | case2 pulls data e hd => rw [hp.rejects hd]; exact ⟨data, pulls, rfl, rfl⟩
  | case3 pulls data hd hlen => exact absurd hd (hn.decided (Nat.le_trans hlimit hlen))
  | case4 data hd =>
    rw [show streamOf ([] : List (ReadStep size)) = [] from rfl, append_nil, hd]
    exact rfl
  | case5 data hd _ pulls ih => exact ih
  | case6 data hd _ c pulls ih => rwa [append_assoc] at ih

end Parser

end Wrongsv
