import Wrongsv.L2Machine.Vision.Writer

/-!
# XTLS Vision: complete TLS records

`is_complete_record` (vless/vision.rs:320-366) counts the five bytes of a record header
down, and then passes over the body at once. A record without a body is not accepted, and
neither is a part of one.

Results: `go_iff`, `isCompleteRecord_spec`.
-/
namespace Wrongsv.L2.Vision
open List

/-- A record of application data; it has a body. -/
structure AppRecord where
  body : Bytes
  nonempty : 0 < body.length
  short : body.length < 65536

def AppRecord.bytes (r : AppRecord) : Bytes :=
  0x17 :: 0x03 :: 0x03 :: (be16 r.body.length ++ r.body)

def Records (b : Bytes) : Prop := ∃ records : List AppRecord, b = records.flatMap AppRecord.bytes

theorem AppRecord.bytes_length (r : AppRecord) : r.bytes.length = r.body.length + 5 := by
  simp [bytes]
  omega

/-- The header of a record. -/
theorem go_header (fuel : Nat) (hi lo : UInt8) (rest : Bytes) :
    isCompleteRecord.go (fuel + 5) 5 0 (0x17 :: 0x03 :: 0x03 :: hi :: lo :: rest) =
      isCompleteRecord.go fuel 0 (u16 hi lo) rest := by
  simp [isCompleteRecord.go, shift_or_eq_u16]

/-- The body of a record. -/
theorem go_body {n fuel : Nat} {rest : Bytes} (hfuel : rest.length ≤ fuel) :
    isCompleteRecord.go fuel 0 n rest = true ↔
      0 < n ∧ n ≤ rest.length ∧ isCompleteRecord.go (fuel - 1) 5 0 (rest.drop n) = true := by
  cases rest with
  | nil =>
    simp [isCompleteRecord.go]
    omega
  | cons x rest =>
    obtain ⟨k, rfl⟩ := Nat.exists_eq_add_of_le' hfuel
    simp [isCompleteRecord.go, ← Nat.add_assoc]

theorem header_of_go {b : Bytes} {fuel : Nat} (hfuel : b.length ≤ fuel) (hb : b ≠ [])
    (h : isCompleteRecord.go fuel 5 0 b = true) :
    ∃ k hi lo rest, fuel = k + 5 ∧ b = 0x17 :: 0x03 :: 0x03 :: hi :: lo :: rest := by
  obtain ⟨k, rfl⟩ := Nat.exists_eq_add_of_le' hfuel
  match b with
  | [] => exact absurd rfl hb
  | [_] | [_, _] | [_, _, _] | [_, _, _, _] => simp [isCompleteRecord.go] at h
  | c₁ :: c₂ :: c₃ :: hi :: lo :: rest =>
    obtain ⟨rfl, rfl, rfl, -⟩ : c₁ = 0x17 ∧ c₂ = 0x03 ∧ c₃ = 0x03 ∧ _ := by
      simpa [isCompleteRecord.go] using h
    exact ⟨k + rest.length, hi, lo, rest, by simp only [length_cons]; omega, rfl⟩

/-- **What the scan accepts**, with as many passes as there are bytes or more. -/
theorem go_iff (b : Bytes) : ∀ fuel, b.length ≤ fuel →
    (isCompleteRecord.go fuel 5 0 b = true ↔ Records b) := by
  induction hlen : b.length using Nat.strongRecOn generalizing b with
  | ind len ih =>
    intro fuel hfuel
    rw [← hlen] at hfuel
    constructor
    · intro h
      by_cases hb : b = []
      · exact ⟨[], hb⟩
      obtain ⟨k, hi, lo, rest, rfl, rfl⟩ := header_of_go hfuel hb h
      simp only [length_cons] at hlen hfuel
      rw [go_header, go_body (by omega)] at h
      obtain ⟨hpos, hle, hgo⟩ := h
      obtain ⟨records, hrest⟩ :=
        (ih _ (by rw [length_drop]; omega) (rest.drop (u16 hi lo)) rfl _ (by rw [length_drop]; omega)).mp hgo
      have hbody : (rest.take (u16 hi lo)).length = u16 hi lo := length_take_of_le hle
      refine ⟨⟨rest.take (u16 hi lo), by omega, by rw [hbody]; exact u16_lt hi lo⟩ :: records, ?_⟩
      simp only [flatMap_cons, AppRecord.bytes, hbody, be16_u16, ← hrest, cons_append, nil_append, take_append_drop]
    · rintro ⟨records, rfl⟩
      cases records with
      | nil => simp [isCompleteRecord.go]
      | cons r records =>
        rw [flatMap_cons, length_append, r.bytes_length] at hlen hfuel
        obtain ⟨k, rfl⟩ : ∃ k, fuel = k + 5 := ⟨fuel - 5, by omega⟩
        have hsize := r.nonempty
        have hgo := (ih _ (by omega) (records.flatMap AppRecord.bytes) rfl (k - 1) (by omega)).mpr ⟨records, rfl⟩
        simp only [flatMap_cons, AppRecord.bytes, be16, cons_append, nil_append]
        rw [go_header, u16_be16 _ r.short, go_body (by rw [length_append]; omega), length_append, drop_left]
        exact ⟨hsize, by omega, hgo⟩

/-- A record that starts another one is as long. -/
theorem AppRecord.length_eq {r r' : AppRecord} {t : Bytes} (h : r.bytes ++ t = r'.bytes) :
    r.bytes.length = r'.bytes.length := by
  have hlen : be16 r.body.length = be16 r'.body.length := by
    simpa [bytes, be16] using congrArg (fun b => (b.drop 3).take 2) h
  rw [bytes_length, bytes_length, ← u16_be16 _ r.short, ← u16_be16 _ r'.short]
  simp only [be16, cons.injEq] at hlen
  rw [hlen.1, hlen.2.1]

/-- **Exactly whole records are accepted.** So what is accepted can be joined, and nothing
of a single record is accepted but all of it; more passes than there are bytes change nothing. -/
theorem isCompleteRecord_spec (b : Bytes) :
    (isCompleteRecord b = true ↔ Records b) ∧
    (∀ b₂, isCompleteRecord b = true → isCompleteRecord b₂ = true → isCompleteRecord (b ++ b₂) = true) ∧
    (∀ r : AppRecord, b <+: r.bytes → b ≠ [] → b ≠ r.bytes → isCompleteRecord b = false) ∧
    ∀ fuel, b.length ≤ fuel → isCompleteRecord.go fuel 5 0 b = isCompleteRecord b := by
  have hiff : ∀ b, isCompleteRecord b = true ↔ Records b := fun b => go_iff b _ (Nat.le_refl _)
  refine ⟨hiff b, fun b₂ h h₂ => ?_, fun r hpre hb hne => ?_, fun fuel hfuel => ?_⟩
  · obtain ⟨records, rfl⟩ := (hiff b).mp h
    obtain ⟨records₂, rfl⟩ := (hiff b₂).mp h₂
    exact (hiff _).mpr ⟨records ++ records₂, flatMap_append.symm⟩
  · rw [Bool.eq_false_iff, Ne, hiff]
    rintro ⟨records, rfl⟩
    obtain ⟨t, ht⟩ := hpre
    cases records with
    | nil => exact hb rfl
    | cons r' records =>
      have hlen := AppRecord.length_eq ((append_assoc ..).symm.trans ht)
      have hall := congrArg length ht
      simp only [flatMap_cons, length_append] at hall
      obtain rfl : t = [] := eq_nil_of_length_eq_zero (by omega)
      exact hne ((append_nil _).symm.trans ht)
  · rw [Bool.eq_iff_iff, go_iff b fuel hfuel, hiff]

end Wrongsv.L2.Vision
