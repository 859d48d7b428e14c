import Wrongsv.Core.Schedule

/-!
# Decoders on a stream of sealed blocks

A decoder that takes blocks off a stream with `read_exact` and passes each
through a cipher whose state, such as a nonce, moves with every block. Stream and
cipher keep what was done to them when the decoder fails.

`Opens p s c a s'`: from the cipher state `s`, and in front of anything, the bytes
`c` are read as `a`, which leaves the state `s'`. It is closed under sequencing,
so the bytes of an encoder can be followed through a decoder block by block.
-/
namespace Wrongsv

abbrev SealedReader (σ ε α : Type) := ExceptT ε (StateM (Schedule × σ)) α

namespace SealedReader

variable {σ ε α β : Type}

/-- `read_exact`, with the errors for a `WouldBlock` and for the end of the stream. -/
def readExact (block eof : ε) (n : Nat) : SealedReader σ ε Bytes := fun (src, s) =>
  match src.readExact n with
  | (.done bytes, src) => (.ok bytes, (src, s))
  | (.block _, src) => (.error block, (src, s))
  | (.eof _, src) => (.error eof, (src, s))

/-- A step of the cipher. -/
def update (f : σ → Except ε α × σ) : SealedReader σ ε α :=
  fun (src, s) => ((f s).1, (src, (f s).2))

/-- A check of what was read. -/
def check (r : Except ε α) : SealedReader σ ε α := fun st => (r, st)

def Opens (p : SealedReader σ ε α) (s : σ) (c : Bytes) (a : α) (s' : σ) : Prop :=
  ∀ rest later, p (⟨c ++ rest, later⟩, s) = (.ok a, (⟨rest, later⟩, s'))

theorem bind_apply (p : SealedReader σ ε α) (f : α → SealedReader σ ε β) (st : Schedule × σ) :
    (p >>= f) st = match p st with
      | (.ok a, st') => f a st'
      | (.error e, st') => (.error e, st') := by
  show (match (p st).1 with
      | .ok a => f a
      | .error e => fun st' => (.error e, st')) (p st).2 = _
  rcases p st with ⟨_ | _, _⟩ <;> rfl

variable {p : SealedReader σ ε α} {f : α → SealedReader σ ε β} {s s' : σ} {c : Bytes} {a : α}

/-- Behind the bytes of its first part, a decoder is its second part. -/
theorem Opens.bind_append (hp : Opens p s c a s') (rest : Bytes) (later : List Bytes) :
    (p >>= f) (⟨c ++ rest, later⟩, s) = f a (⟨rest, later⟩, s') := by
  rw [bind_apply, hp]

theorem Opens.bind {s₀ s₁ s₂ : σ} {c₁ c₂ : Bytes} {y : β} (hp : Opens p s₀ c₁ a s₁)
    (hf : Opens (f a) s₁ c₂ y s₂) : Opens (p >>= f) s₀ (c₁ ++ c₂) y s₂ := by
  intro rest later
  rw [List.append_assoc, hp.bind_append]
  exact hf rest later

theorem opens_readExact (block eof : ε) (s : σ) (c : Bytes) :
    Opens (readExact block eof c.length) s c c s := by
  intro rest later
  simp only [readExact, Schedule.readExact_append]

theorem opens_update {f : σ → Except ε α × σ} (h : f s = (.ok a, s')) :
    Opens (update f) s [] a s' := by
  intro rest later
  simp only [update, h, List.nil_append]

theorem opens_check {r : Except ε α} (h : r = .ok a) (s : σ) : Opens (check r) s [] a s := by
  intro rest later
  simp only [check, h, List.nil_append]

/-! ## Looking back -/

theorem bind_ok {st st' : Schedule × σ} {y : β}
    (h : (p >>= f) st = (.ok y, st')) : ∃ a st₁, p st = (.ok a, st₁) ∧ f a st₁ = (.ok y, st') := by
  rw [bind_apply] at h
  rcases hp : p st with ⟨_ | a, st₁⟩
  · rw [hp] at h
    cases h
  · rw [hp] at h
    exact ⟨a, st₁, rfl, h⟩

theorem readExact_ok {block eof : ε} {n : Nat} {src src' : Schedule}
    (h : readExact block eof n (src, s) = (.ok c, (src', s'))) : src.bytes = c ++ src'.bytes ∧ s' = s := by
  unfold readExact at h
  rcases hr : src.readExact n with ⟨_ | _ | _, _⟩
  · simp only [hr] at h
    cases h
    exact ⟨Schedule.bytes_of_readExact_done hr, rfl⟩
  · simp only [hr] at h
    cases h
  · simp only [hr] at h
    cases h

theorem readExact_nil (block eof : ε) {n : Nat} (hn : 0 < n) (s : σ) :
    readExact block eof n (⟨[], []⟩, s) = (.error eof, (⟨[], []⟩, s)) := by
  simp only [readExact, Schedule.readExact_eof (s := ⟨[], []⟩) hn rfl]

end SealedReader

end Wrongsv
