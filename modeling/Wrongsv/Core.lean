import Mathlib.Algebra.Order.Ring.Int
import Mathlib.Data.List.Basic

/-!
# Bytes and network byte order

Network wire formats are byte strings with big-endian integers. A byte string
is a `List UInt8`; the `to_be_bytes` / `from_be_bytes` pairs of the source
become `be16` / `u16` (on naturals, for lengths kept in `usize` and `i32`) and
`be32` / `u32` (on `UInt32`, for counters that wrap). `beBytes` / `ofBe` are
the same for any width.

The decoders of the source index into a slice after checking its length. Here
they take a value off the front of the bytes and fail when it is not there
(`getU8`, `getU16`, `getU32`, `getBytes`).

`slice.chunks(n)` is `List.toChunks`.
-/
namespace Wrongsv
open List

abbrev Bytes := List UInt8

/-- `[b; n]` -/
def constBytes (n : Nat) (b : UInt8) : { l : Bytes // l.length = n } :=
  ⟨replicate n b, length_replicate⟩

/-- The first `n` bytes. -/
def octets {body : Bytes} {n : Nat} (h : ¬ body.length < n) : { l : Bytes // l.length = n } :=
  ⟨body.take n, length_take_of_le (Nat.not_lt.mp h)⟩

theorem octets_eq {n : Nat} (raw : { l : Bytes // l.length = n }) (h : ¬ raw.val.length < n) :
    octets h = raw :=
  Subtype.ext (take_of_length_le (Nat.le_of_eq raw.property))

/-- An address in front of a port. -/
theorem length_take_octets {rest : Bytes} {n : Nat} (h : ¬ rest.length < n + 2) :
    (rest.take n).length = n := by
  rw [length_take]
  omega

/-! ## Two-byte integers -/

/-- `(n as u16).to_be_bytes()`; the cast drops everything above 16 bits, as
`UInt8.ofNat` does byte by byte. -/
def be16 (n : Nat) : Bytes := [UInt8.ofNat (n / 256), UInt8.ofNat n]

/-- `u16::from_be_bytes([hi, lo])`. -/
def u16 (hi lo : UInt8) : Nat := hi.toNat * 256 + lo.toNat

@[simp] theorem be16_length (n : Nat) : (be16 n).length = 2 := rfl

theorem u16_lt (hi lo : UInt8) : u16 hi lo < 65536 := by
  have h1 := hi.toNat_lt
  have h2 := lo.toNat_lt
  unfold u16; omega

theorem u16_be16 (n : Nat) (h : n < 65536) : u16 (UInt8.ofNat (n / 256)) (UInt8.ofNat n) = n := by
  unfold u16
  rw [UInt8.toNat_ofNat', UInt8.toNat_ofNat']
  omega

theorem shift_or_eq_u16 (hi lo : UInt8) : hi.toNat <<< 8 ||| lo.toNat = u16 hi lo := by
  rw [← Nat.shiftLeft_add_eq_or_of_lt lo.toNat_lt, Nat.shiftLeft_eq]
  rfl

theorem be16_u16 (hi lo : UInt8) : be16 (u16 hi lo) = [hi, lo] := by
  have h1 := hi.toNat_lt
  have h2 := lo.toNat_lt
  grind [u16, be16, UInt8.ofNat, UInt8.toNat_inj, UInt8.toNat_ofNat']

/-- `u16::from_be_bytes([data[n], data[n + 1]])`. -/
def u16At (data : Bytes) (n : Nat) : Nat := u16 (data.getD n 0) (data.getD (n + 1) 0)

theorem u16At_append (a : Bytes) {n : Nat} (h : n < 65536) (rest : Bytes) :
    u16At (a ++ (be16 n ++ rest)) a.length = n := by
  have hnext : a.length ≤ a.length + 1 := Nat.le_succ _
  unfold u16At
  simp only [List.getD_eq_getElem?_getD, List.getElem?_append_right (Nat.le_refl _),
    List.getElem?_append_right hnext, Nat.sub_self, Nat.add_sub_cancel_left]
  exact u16_be16 n h

/-! ## Four-byte integers -/

/-- `n.to_be_bytes()` for a `u32`. -/
def be32 (n : UInt32) : Bytes :=
  [UInt8.ofNat (n.toNat / 16777216), UInt8.ofNat (n.toNat / 65536), UInt8.ofNat (n.toNat / 256),
    UInt8.ofNat n.toNat]

/-- `u32::from_be_bytes([a, b, c, d])`. -/
def u32 (a b c d : UInt8) : UInt32 :=
  UInt32.ofNat (a.toNat * 16777216 + b.toNat * 65536 + c.toNat * 256 + d.toNat)

theorem u32_be32 (n : UInt32) : u32 (UInt8.ofNat (n.toNat / 16777216))
      (UInt8.ofNat (n.toNat / 65536)) (UInt8.ofNat (n.toNat / 256)) (UInt8.ofNat n.toNat) = n := by
  have h := n.toNat_lt
  apply UInt32.toNat_inj.mp
  simp only [u32, UInt32.toNat_ofNat', UInt8.toNat_ofNat']
  omega

theorem be32_u32 (a b c d : UInt8) : be32 (u32 a b c d) = [a, b, c, d] := by
  have ha := a.toNat_lt
  have hb := b.toNat_lt
  have hc := c.toNat_lt
  have hd := d.toNat_lt
  have hn : (u32 a b c d).toNat = a.toNat * 16777216 + b.toNat * 65536 + c.toNat * 256 + d.toNat := by
    rw [u32, UInt32.toNat_ofNat']
    omega
  have hbyte : ∀ (x : UInt8) (n : Nat), n % 256 = x.toNat → UInt8.ofNat n = x := fun x n h =>
    UInt8.toNat_inj.mp (by rw [UInt8.toNat_ofNat']; exact h)
  unfold be32
  rw [hn, hbyte a _ (by omega), hbyte b _ (by omega), hbyte c _ (by omega), hbyte d _ (by omega)]

/-! ## Integers of any width -/

/-- The last `k` bytes of `n`, big-endian: `n.to_be_bytes()` for a `k`-byte integer. -/
def beBytes : Nat → Nat → Bytes
  | 0, _ => []
  | k + 1, n => beBytes k (n / 256) ++ [UInt8.ofNat n]

/-- `from_be_bytes` of as many bytes as there are. -/
def ofBe (b : Bytes) : Nat := b.foldl (fun n a => n * 256 + a.toNat) 0

@[simp] theorem beBytes_length (k : Nat) : ∀ n, (beBytes k n).length = k := by
  induction k with
  | zero => intro n; rfl
  | succ k ih => intro n; rw [beBytes, length_append, ih]; rfl

theorem ofBe_append (b : Bytes) (a : UInt8) : ofBe (b ++ [a]) = ofBe b * 256 + a.toNat := by
  rw [ofBe, foldl_append]
  rfl

theorem ofBe_beBytes_mod (k : Nat) : ∀ n, ofBe (beBytes k n) = n % 256 ^ k := by
  induction k with
  | zero => intro n; rw [Nat.pow_zero, Nat.mod_one]; rfl
  | succ k ih =>
    intro n
    have hmod : n % 256 ^ (k + 1) = n % 256 + 256 * (n / 256 % 256 ^ k) := by
      rw [Nat.pow_succ', Nat.mod_mul]
    rw [beBytes, ofBe_append, ih, UInt8.toNat_ofNat', hmod]
    omega

theorem ofBe_beBytes {k n : Nat} (h : n < 256 ^ k) : ofBe (beBytes k n) = n := by
  rw [ofBe_beBytes_mod, Nat.mod_eq_of_lt h]

theorem beBytes_succ (k : Nat) :
    ∀ n, beBytes (k + 1) n = UInt8.ofNat (n / 256 ^ k) :: beBytes k n := by
  induction k with
  | zero => intro n; rw [Nat.pow_zero, Nat.div_one]; rfl
  | succ k ih =>
    intro n
    rw [beBytes, ih, Nat.div_div_eq_div_mul, ← Nat.pow_succ', cons_append]
    rfl

/-! ## Taking values off the front -/

def getU8 : Bytes → Option (UInt8 × Bytes)
  | a :: rest => some (a, rest)
  | [] => none

def getU16 : Bytes → Option (Nat × Bytes)
  | a :: b :: rest => some (u16 a b, rest)
  | _ => none

def getU32 : Bytes → Option (UInt32 × Bytes)
  | a :: b :: c :: d :: rest => some (u32 a b c d, rest)
  | _ => none

def getBytes (n : Nat) (buf : Bytes) : Option (Bytes × Bytes) :=
  if buf.length < n then none else some (buf.take n, buf.drop n)

section
variable (rest : Bytes)

@[simp] theorem getU8_cons (a : UInt8) : getU8 (a :: rest) = some (a, rest) := rfl

@[simp] theorem getU16_be16 (n : Nat) (h : n < 65536) :
    getU16 (be16 n ++ rest) = some (n, rest) := by
  show some (u16 (UInt8.ofNat (n / 256)) (UInt8.ofNat n), rest) = _
  rw [u16_be16 n h]

@[simp] theorem getU32_be32 (n : UInt32) : getU32 (be32 n ++ rest) = some (n, rest) := by
  show some (u32 _ _ _ _, rest) = _
  rw [u32_be32 n]

@[simp] theorem getBytes_append (a : Bytes) : getBytes a.length (a ++ rest) = some (a, rest) := by
  unfold getBytes
  rw [if_neg (by rw [length_append]; omega), take_left, drop_left]

end

section
variable {buf rest : Bytes}

theorem getU8_length {a : UInt8} (h : getU8 buf = some (a, rest)) :
    buf.length = rest.length + 1 := by
  unfold getU8 at h
  split at h <;> cases h
  rfl

theorem getU16_length {n : Nat} (h : getU16 buf = some (n, rest)) :
    buf.length = rest.length + 2 := by
  unfold getU16 at h
  split at h <;> cases h
  rfl

theorem getU32_length {n : UInt32} (h : getU32 buf = some (n, rest)) :
    buf.length = rest.length + 4 := by
  unfold getU32 at h
  split at h <;> cases h
  rfl

theorem getBytes_length {a : Bytes} {n : Nat} (h : getBytes n buf = some (a, rest)) :
    buf.length = rest.length + n := by
  unfold getBytes at h
  split at h <;> cases h
  rw [length_drop]
  omega

end

/-! ## Slices in chunks -/

section
variable {α : Type} {n : Nat}

theorem toChunks_go_done (xs : List α) : ∀ (acc : Array α) (done : Array (List α)),
    List.toChunks.go n xs acc done = done.toList ++ List.toChunks.go n xs acc #[] := by
  induction xs with
  | nil =>
    simp [List.toChunks.go]
  | cons x xs ih =>
    intro acc done
    rw [List.toChunks.go, List.toChunks.go]
    split
    · rw [ih, ih _ (Array.push #[] acc.toList), Array.toList_push, append_assoc]
      rfl
    · exact ih _ done

theorem toChunks_go_eq (xs : List α) : ∀ acc : Array α, acc.size ≤ n + 1 →
    List.toChunks.go (n + 1) xs acc #[] =
      (acc.toList ++ xs.take (n + 1 - acc.size)) :: (xs.drop (n + 1 - acc.size)).toChunks (n + 1) := by
  induction xs with
  | nil =>
    simp [List.toChunks.go, List.toChunks]
  | cons x xs ih =>
    intro acc hacc
    rw [List.toChunks.go]
    split
    · rename_i hfull
      rw [beq_iff_eq.mp hfull, Nat.sub_self, toChunks_go_done, take_zero, append_nil]
      rfl
    · rename_i hne
      have hroom : n + 1 - acc.size = n + 1 - (acc.push x).size + 1 := by
        rw [beq_iff_eq] at hne
        rw [Array.size_push]
        omega
      rw [ih _ (by rw [Array.size_push]; omega), hroom, take_succ_cons, drop_succ_cons, Array.toList_push, append_assoc]
      rfl

theorem toChunks_eq {xs : List α} (h : xs ≠ []) :
    xs.toChunks (n + 1) = xs.take (n + 1) :: (xs.drop (n + 1)).toChunks (n + 1) := by
  cases xs with
  | nil => exact absurd rfl h
  | cons x xs => exact toChunks_go_eq xs #[x] (Nat.le_add_left 1 n)

/-- `chunks` of a slice: in order they are the slice, and none is too long. -/
theorem toChunks_spec (hn : 1 ≤ n) (xs : List α) :
    (xs.toChunks n).flatten = xs ∧ ∀ c ∈ xs.toChunks n, c.length ≤ n := by
  obtain ⟨k, rfl⟩ : ∃ k, n = k + 1 := ⟨n - 1, by omega⟩
  induction hlen : xs.length using Nat.strongRecOn generalizing xs with
  | ind len ih =>
    by_cases hxs : xs = []
    · subst hxs
      exact ⟨rfl, fun c hc => nomatch hc⟩
    · have hpos := length_pos_iff.mpr hxs
      obtain ⟨hflat, hle⟩ := ih _ (by rw [length_drop]; omega) (xs.drop (k + 1)) rfl
      rw [toChunks_eq hxs, flatten_cons, hflat, take_append_drop, forall_mem_cons]
      exact ⟨rfl, length_take_le _ _, hle⟩

theorem toChunks_short (xs : List α) (h : xs.length ≤ n) :
    xs.toChunks n = if xs.length = 0 then [] else [xs] := by
  cases xs with
  | nil => cases n <;> rfl
  | cons x xs =>
    obtain ⟨k, rfl⟩ : ∃ k, n = k + 1 := ⟨n - 1, by rw [length_cons] at h; omega⟩
    rw [toChunks_eq (cons_ne_nil x xs), take_of_length_le h, drop_of_length_le h]
    rfl

end

/-! ## Key streams -/

theorem mapIdx_xor_twice (key : Nat → UInt8) (l : Bytes) :
    (l.mapIdx fun i b => b ^^^ key i).mapIdx (fun i b => b ^^^ key i) = l := by
  rw [mapIdx_mapIdx]
  apply ext_getElem
  · exact length_mapIdx
  · intro i _ _
    rw [getElem_mapIdx, Function.comp_apply, UInt8.xor_assoc, UInt8.xor_self, UInt8.xor_zero]

end Wrongsv
