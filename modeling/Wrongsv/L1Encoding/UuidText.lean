import Wrongsv.L1Encoding.VlessHeader

/-!
# UUIDs in text

`Uuid::parse_string` of uuid/types.rs:31-75. A text of 32 to 36 bytes is
read as the groups 8-4-4-4-12 of hex digits with a dash allowed in front of each one;
what stands behind the last group is ignored. A shorter text of up to 30 bytes is a
name and is hashed.

Results, beside `parseString_eq_iff`:
* `readGroups_length`: the groups make sixteen bytes.
-/
namespace Wrongsv.L1.UuidText
open L1.VisionFrame L1.VlessHeader List

inductive ParseUuidError where
  | invalidLength (len : Nat)
  | invalidFormat (text : String)
  deriving DecidableEq, Repr

def ParseUuidError.toText : ParseUuidError → String
  | .invalidLength len => "invalid UUID length: " ++ toString len
  | .invalidFormat text => "invalid UUID: " ++ text

/-! ## Hex digits -/

/-- A digit as the `hex` crate documents it: `0-9`, `a-f` and `A-F`. -/
def hexVal (b : UInt8) : Option Nat :=
  if 48 ≤ b.toNat ∧ b.toNat ≤ 57 then some (b.toNat - 48)
  else if 97 ≤ b.toNat ∧ b.toNat ≤ 102 then some (b.toNat - 87)
  else if 65 ≤ b.toNat ∧ b.toNat ≤ 70 then some (b.toNat - 55)
  else none

/-- `hex::decode` of that crate: two digits a byte, the high one first, and an error on an odd
number of digits or on any other byte. Nothing else is taken from it. -/
def hexDecode : Bytes → Option Bytes
  | [] => some []
  | [_] => none
  | a :: b :: rest => do
    let high ← hexVal a
    let low ← hexVal b
    let tail ← hexDecode rest
    some (UInt8.ofNat (high * 16 + low) :: tail)

def lowercaseDigit (b : UInt8) : UInt8 :=
  if 65 ≤ b.toNat ∧ b.toNat ≤ 70 then UInt8.ofNat (b.toNat + 32) else b

def dash : UInt8 := 0x2D

theorem hexVal_lt {b : UInt8} {n : Nat} (h : hexVal b = some n) : n < 16 := by
  unfold hexVal at h
  split_ifs at h <;> (cases h; omega)

theorem lowercaseDigit_eq_iff {a b : UInt8} {m n : Nat} (ha : hexVal a = some m)
    (hb : hexVal b = some n) : lowercaseDigit a = lowercaseDigit b ↔ m = n := by
  have hlower : ∀ {c : UInt8} {k : Nat}, hexVal c = some k →
      (lowercaseDigit c).toNat = if k < 10 then k + 48 else k + 87 := by
    intro c k hc
    unfold hexVal at hc
    unfold lowercaseDigit
    split_ifs at hc with h1 h2 h3 <;> cases hc
    · rw [if_neg (by omega), if_pos (by omega)]
      omega
    · rw [if_neg (by omega), if_neg (by omega)]
      omega
    · rw [if_pos h3, if_neg (by omega), UInt8.toNat_ofNat']
      omega
  rw [← UInt8.toNat_inj, hlower ha, hlower hb]
  split_ifs <;> omega

theorem hexDecode_cons₂ {a b : UInt8} {rest out : Bytes} (h : hexDecode (a :: b :: rest) = some out) :
    ∃ high low tail, hexVal a = some high ∧ hexVal b = some low ∧ hexDecode rest = some tail ∧
      out = UInt8.ofNat (high * 16 + low) :: tail := by
  simp only [hexDecode, bind, Option.bind_eq_some_iff, Option.some.injEq] at h
  obtain ⟨high, ha, low, hb, tail, hrest, hout⟩ := h
  exact ⟨high, low, tail, ha, hb, hrest, hout.symm⟩

theorem hexDecode_length :
    ∀ {text out : Bytes}, hexDecode text = some out → text.length = 2 * out.length
  | [], out, h => by
    cases h
    rfl
  | [_], _, h => by cases h
  | a :: b :: rest, out, h => by
    obtain ⟨high, low, tail, -, -, hrest, rfl⟩ := hexDecode_cons₂ h
    have ih := hexDecode_length hrest
    simp only [length_cons]
    omega

theorem hexDecode_append : ∀ {a b x y : Bytes}, hexDecode a = some x → hexDecode b = some y →
    hexDecode (a ++ b) = some (x ++ y)
  | [], b, x, y, ha, hb => by
    cases ha
    exact hb
  | [_], _, _, _, ha, _ => by cases ha
  | c :: d :: rest, b, x, y, ha, hb => by
    obtain ⟨high, low, tail, hc, hd, hrest, rfl⟩ := hexDecode_cons₂ ha
    have ih := hexDecode_append hrest hb
    simp [hexDecode, hc, hd, ih]

theorem hexDecode_split : ∀ (k : Nat) {text out : Bytes}, hexDecode text = some out →
    hexDecode (text.take (2 * k)) = some (out.take k) ∧ hexDecode (text.drop (2 * k)) = some (out.drop k)
  | 0, _, _, h => ⟨rfl, h⟩
  | _ + 1, [], _, h => by
    cases h
    exact ⟨rfl, rfl⟩
  | _ + 1, [_], _, h => by cases h
  | k + 1, a :: b :: rest, out, h => by
    obtain ⟨high, low, tail, ha, hb, hrest, rfl⟩ := hexDecode_cons₂ h
    obtain ⟨htake, hdrop⟩ := hexDecode_split k hrest
    have htwo : 2 * (k + 1) = 2 * k + 1 + 1 := by omega
    rw [htwo]
    exact ⟨by simp [hexDecode, ha, hb, htake], by simpa using hdrop⟩

theorem filter_of_hexDecode : ∀ {text out : Bytes}, hexDecode text = some out →
    text.filter (· ≠ dash) = text
  | [], _, _ => rfl
  | [_], _, h => by cases h
  | a :: b :: rest, out, h => by
    obtain ⟨high, low, tail, ha, hb, hrest, rfl⟩ := hexDecode_cons₂ h
    have hne : ∀ {c : UInt8} {n : Nat}, hexVal c = some n → c ≠ dash := by
      rintro c n hc rfl
      cases hc
    have ih := filter_of_hexDecode hrest
    rw [filter_cons_of_pos (by simp [hne ha]), filter_cons_of_pos (by simp [hne hb]), ih]

/-- **The value is the digits up to case.** -/
theorem hexDecode_eq_iff : ∀ {a b x y : Bytes}, hexDecode a = some x → hexDecode b = some y →
    (x = y ↔ a.map lowercaseDigit = b.map lowercaseDigit)
  | [], b, x, y, ha, hb => by
    cases ha
    have hlen := hexDecode_length hb
    constructor
    · rintro rfl
      rw [List.length_eq_zero_iff.mp hlen]
    · intro h
      rw [map_nil] at h
      have hb0 : b = [] := List.map_eq_nil_iff.mp h.symm
      rw [hb0] at hlen
      rw [length_nil] at hlen
      exact (List.length_eq_zero_iff.mp (by omega)).symm
  | [_], _, _, _, ha, _ => by cases ha
  | _ :: _ :: _, [], x, y, ha, hb => by
    obtain ⟨_, _, _, -, -, -, rfl⟩ := hexDecode_cons₂ ha
    cases hb
    simp
  | _ :: _ :: _, [_], _, _, _, hb => by cases hb
  | a₁ :: a₂ :: as, b₁ :: b₂ :: bs, x, y, ha, hb => by
    obtain ⟨m₁, m₂, ta, ha₁, ha₂, has, rfl⟩ := hexDecode_cons₂ ha
    obtain ⟨n₁, n₂, tb, hb₁, hb₂, hbs, rfl⟩ := hexDecode_cons₂ hb
    have ih := hexDecode_eq_iff has hbs
    have hlt := hexVal_lt ha₁
    have hlt₂ := hexVal_lt ha₂
    have hlt₃ := hexVal_lt hb₁
    have hlt₄ := hexVal_lt hb₂
    have hbyte : UInt8.ofNat (m₁ * 16 + m₂) = UInt8.ofNat (n₁ * 16 + n₂) ↔ m₁ = n₁ ∧ m₂ = n₂ := by
      rw [← UInt8.toNat_inj, UInt8.toNat_ofNat', UInt8.toNat_ofNat']
      omega
    simp only [List.cons.injEq, map_cons, hbyte, ih, lowercaseDigit_eq_iff ha₁ hb₁,
      lowercaseDigit_eq_iff ha₂ hb₂, and_assoc]

/-! ## Groups -/

/-- A dash in front of a group is skipped. -/
def skipDash : Bytes → Bytes
  | [] => []
  | b :: text => if b = dash then text else b :: text

/-- The loop over the groups, each with its number of digits. -/
def readGroups : List Nat → Bytes → Option Bytes
  | [], _ => some []
  | hexLen :: groups, text => do
    let text := skipDash text
    if text.length < hexLen then none
    else
      let decoded ← hexDecode (text.take hexLen)
      let bytes ← readGroups groups (text.drop hexLen)
      some (decoded ++ bytes)

def groups : List Nat := [8, 4, 4, 4, 12]

theorem readGroups_cons {n : Nat} {ns : List Nat} {text out : Bytes} (h : readGroups (n :: ns) text = some out) :
    ∃ decoded bytes, n ≤ (skipDash text).length ∧ hexDecode ((skipDash text).take n) = some decoded ∧
      readGroups ns ((skipDash text).drop n) = some bytes ∧ out = decoded ++ bytes := by
  simp only [readGroups] at h
  split_ifs at h with hlen
  simp only [bind, Option.bind_eq_some_iff, Option.some.injEq] at h
  obtain ⟨decoded, hdec, bytes, hrest, hout⟩ := h
  exact ⟨decoded, bytes, by omega, hdec, hrest, hout.symm⟩

theorem filter_skipDash (text : Bytes) :
    (skipDash text).filter (· ≠ dash) = text.filter (· ≠ dash) := by
  cases text with
  | nil => rfl
  | cons b text =>
    by_cases hb : b = dash
    · simp [skipDash, hb]
    · simp [skipDash, hb]

/-- The text without its dashes starts with the digits that are decoded. -/
theorem readGroups_digits : ∀ {ns : List Nat} {text out : Bytes}, readGroups ns text = some out →
    ∃ digits rest, text.filter (· ≠ dash) = digits ++ rest ∧ digits.length = ns.sum ∧
      hexDecode digits = some out
  | [], text, out, h => by
    cases h
    exact ⟨[], _, rfl, rfl, rfl⟩
  | n :: ns, text, out, h => by
    obtain ⟨decoded, bytes, hlen, hdec, hrest, rfl⟩ := readGroups_cons h
    obtain ⟨digits, rest, hfilter, hdigits, hbytes⟩ := readGroups_digits hrest
    refine ⟨(skipDash text).take n ++ digits, rest, ?_, ?_, hexDecode_append hdec hbytes⟩
    · rw [← filter_skipDash, ← take_append_drop n (skipDash text), filter_append, hfilter,
        take_append_drop, filter_of_hexDecode hdec, append_assoc]
    · rw [length_append, length_take, Nat.min_eq_left hlen, hdigits, sum_cons]

theorem readGroups_length {text out : Bytes} (h : readGroups groups text = some out) :
    out.length = 16 := by
  obtain ⟨digits, rest, -, hlen, hdec⟩ := readGroups_digits h
  have := hexDecode_length hdec
  have hsum : groups.sum = 32 := rfl
  omega

/-! ## The text -/

/-- `Sha256::finalize` on everything that was put in. -/
abbrev Sha256 := Bytes → { digest : Bytes // digest.length = 32 }

/-- types.rs:62-72 -/
def fromShortName (sha256 : Sha256) (name : String) : Uuid :=
  let bytes := (sha256 (List.replicate 16 0 ++ utf8 name)).val.take 16
  let bytes := bytes.set 6 (bytes.getD 6 0 &&& 0x0F ||| 0x50)
  ⟨bytes.set 8 (bytes.getD 8 0 &&& 0x3F ||| 0x80), by
    rw [length_set, length_set, length_take, (sha256 _).property]
    rfl⟩

/-- The five groups, as the sixteen bytes they make. -/
def parseGroups (s : String) : Except ParseUuidError Uuid :=
  match h : readGroups groups (utf8 s) with
  | some bytes => .ok ⟨bytes, readGroups_length h⟩
  | none => .error (.invalidFormat s)

/-- types.rs:31-60 -/
def parseString (sha256 : Sha256) (s : String) : Except ParseUuidError Uuid :=
  let text := utf8 s
  if text.length < 32 ∨ 36 < text.length then
    if text ≠ [] ∧ text.length ≤ 30 then .ok (fromShortName sha256 s)
    else .error (.invalidFormat s)
  else parseGroups s

theorem parseGroups_ok {s : String} {id : Uuid} :
    parseGroups s = .ok id ↔ readGroups groups (utf8 s) = some id.bytes := by
  unfold parseGroups
  split
  · rename_i bytes h
    rw [Except.ok.injEq]
    constructor
    · rintro rfl
      exact h
    · intro hid
      rw [h, Option.some.injEq] at hid
      cases id
      cases hid
      rfl
  · rename_i h
    simp [h]

theorem parseString_long {sha256 : Sha256} {s : String} {id : Uuid} (h : parseString sha256 s = .ok id)
    (hlen : 32 ≤ (utf8 s).length) : readGroups groups (utf8 s) = some id.bytes := by
  unfold parseString at h
  simp only at h
  split_ifs at h with hout hname
  · omega
  · exact parseGroups_ok.mp h

/-- The digits of a text, in lower case. -/
def digits (s : String) : Bytes := (((utf8 s).filter (· ≠ dash)).take 32).map lowercaseDigit

/-- The digits of a text that is read as groups, before they are put in lower case. -/
theorem digits_decode {sha256 : Sha256} {s : String} {id : Uuid} (h : parseString sha256 s = .ok id)
    (hlen : 32 ≤ (utf8 s).length) :
    ∃ text, digits s = text.map lowercaseDigit ∧ hexDecode text = some id.bytes := by
  obtain ⟨text, rest, hfilter, htext, hdec⟩ := readGroups_digits (parseString_long h hlen)
  have hsum : groups.sum = 32 := rfl
  exact ⟨text, by rw [digits, hfilter, take_left' (htext.trans hsum)], hdec⟩

section
variable {sha256 : Sha256} {s t : String} {a b : Uuid} (hs : parseString sha256 s = .ok a)
  (ht : parseString sha256 t = .ok b) (hslen : 32 ≤ (utf8 s).length) (htlen : 32 ≤ (utf8 t).length)
include hs ht hslen htlen

/-- **Case and dashes do not matter.** -/
theorem parseString_eq_iff : a = b ↔ digits s = digits t := by
  obtain ⟨ds, hds, hdecs⟩ := digits_decode hs hslen
  obtain ⟨dt, hdt, hdect⟩ := digits_decode ht htlen
  rw [hds, hdt, ← hexDecode_eq_iff hdecs hdect, Uuid.mk.injEq]

theorem parseString_parts_iff (k : Nat) :
    (a.bytes.take k = b.bytes.take k ↔ (digits s).take (2 * k) = (digits t).take (2 * k)) ∧
      (a.bytes.drop k = b.bytes.drop k ↔ (digits s).drop (2 * k) = (digits t).drop (2 * k)) := by
  obtain ⟨ds, hds, hdecs⟩ := digits_decode hs hslen
  obtain ⟨dt, hdt, hdect⟩ := digits_decode ht htlen
  obtain ⟨hstake, hsdrop⟩ := hexDecode_split k hdecs
  obtain ⟨httake, htdrop⟩ := hexDecode_split k hdect
  rw [hds, hdt, ← map_take, ← map_take, ← map_drop, ← map_drop]
  exact ⟨hexDecode_eq_iff hstake httake, hexDecode_eq_iff hsdrop htdrop⟩

end

end Wrongsv.L1.UuidText
