import Wrongsv.L1Encoding.HttpForward
import Wrongsv.L1Encoding.UuidText

/-!
# UUIDs: text that is not part of one

`Uuid::parse_string` (uuid/types.rs:31-60) tests the length of the text and reads five groups,
each with a dash in front of it if there is one. What is left behind the last group is not
looked at, and the first group may have a dash, too.

Spec clause: what is displayed is parsed as it was, and a text of 32 to 36 bytes is parsed
only if it is 32 digits with or without dashes at the four boundaries.

Fix: refuse a text of which something is left, and a dash in front of the first group.
-/
namespace Wrongsv.Bugs.UuidTrailingText
open L1.UuidText L1.VisionFrame L1.VlessHeader List

/-! ## Display -/

def hexDigit (n : Nat) : Char := Char.ofNat (if n < 10 then 48 + n else 87 + n)

/-- `{:02x}` of each byte -/
def hexText (bytes : Bytes) : List Char :=
  bytes.flatMap fun b => [hexDigit (b.toNat / 16), hexDigit (b.toNat % 16)]

def display (u : Uuid) : String :=
  String.ofList (hexText (u.bytes.take 4) ++ '-' :: (hexText ((u.bytes.drop 4).take 2) ++
    '-' :: (hexText ((u.bytes.drop 6).take 2) ++ '-' :: (hexText ((u.bytes.drop 8).take 2) ++
      '-' :: hexText (u.bytes.drop 10)))))

/-- The text of some bytes, as bytes. -/
def hexBytes (bytes : Bytes) : Bytes := L1.HttpForward.encode (hexText bytes)

theorem encode_hexDigit : ∀ n < 16, String.utf8EncodeChar (hexDigit n) =
    [UInt8.ofNat (hexDigit n).toNat] ∧ hexVal (UInt8.ofNat (hexDigit n).toNat) = some n := by
  decide

theorem hexDecode_hexBytes (bytes : Bytes) :
    hexDecode (hexBytes bytes) = some bytes ∧ (hexBytes bytes).length = 2 * bytes.length := by
  induction bytes with
  | nil => exact ⟨rfl, rfl⟩
  | cons b bytes ih =>
    have hb := b.toNat_lt
    obtain ⟨hc, hcv⟩ := encode_hexDigit (b.toNat / 16) (by omega)
    obtain ⟨hd, hdv⟩ := encode_hexDigit (b.toNat % 16) (by omega)
    have hcons : hexBytes (b :: bytes) = UInt8.ofNat (hexDigit (b.toNat / 16)).toNat ::
        UInt8.ofNat (hexDigit (b.toNat % 16)).toNat :: hexBytes bytes := by
      simp [hexBytes, hexText, L1.HttpForward.encode, hc, hd]
    have hbyte : UInt8.ofNat (b.toNat / 16 * 16 + b.toNat % 16) = b := by
      rw [Nat.div_add_mod', UInt8.ofNat_toNat]
    rw [hcons]
    exact ⟨by simp only [hexDecode, hcv, hdv, ih.1, hbyte, Option.bind_eq_bind, Option.bind_some],
      by simp [ih.2]; omega⟩

/-! ## Groups -/

theorem dash_notMem {text out : Bytes} (h : hexDecode text = some out) : dash ∉ text := by
  have := List.filter_eq_self.mp (filter_of_hexDecode h)
  intro hmem
  simpa using this dash hmem

theorem skipDash_of_notMem {g t : Bytes} (h : dash ∉ g) (hg : g ≠ []) :
    skipDash (g ++ t) = g ++ t := by
  cases g with
  | nil => exact absurd rfl hg
  | cons b g =>
    have hb : b ≠ dash := fun hb => h (by simp [hb])
    simp [skipDash, hb]

theorem readGroups_group {n : Nat} {g x text t : Bytes} (ns : List Nat) (hx : hexDecode g = some x)
    (hn : g.length = n) (htext : skipDash text = g ++ t) :
    readGroups (n :: ns) text = (readGroups ns t).map (x ++ ·) := by
  subst hn
  simp only [readGroups, htext, length_append, take_left, drop_left, hx]
  rw [if_neg (by omega)]
  cases readGroups ns t <;> rfl

theorem parseString_display (sha256 : Sha256) (u : Uuid) :
    parseString sha256 (display u) = .ok u := by
  have htext : utf8 (display u) = hexBytes (u.bytes.take 4) ++ dash :: (hexBytes ((u.bytes.drop 4).take 2) ++
      dash :: (hexBytes ((u.bytes.drop 6).take 2) ++ dash :: (hexBytes ((u.bytes.drop 8).take 2) ++
        dash :: hexBytes (u.bytes.drop 10)))) := by
    have hdash : ∀ t, L1.HttpForward.encode ('-' :: t) = dash :: L1.HttpForward.encode t := fun _ => rfl
    rw [display, L1.HttpForward.utf8_ofList]
    simp only [L1.HttpForward.encode_append, hdash, hexBytes]
  have hlen := u.length_eq
  have hgroup : ∀ (n : Nat) (ns : List Nat) (bytes t : Bytes), 2 * bytes.length = n → 0 < n →
      readGroups (n :: ns) (hexBytes bytes ++ t) = (readGroups ns t).map (bytes ++ ·) ∧
        readGroups (n :: ns) (dash :: (hexBytes bytes ++ t)) = (readGroups ns t).map (bytes ++ ·) := by
    intro n ns bytes t hn hpos
    obtain ⟨hdec, hsize⟩ := hexDecode_hexBytes bytes
    have hne : hexBytes bytes ≠ [] := ne_nil_of_length_pos (by omega)
    exact ⟨readGroups_group ns hdec (hsize.trans hn) (skipDash_of_notMem (dash_notMem hdec) hne),
      readGroups_group ns hdec (hsize.trans hn) (by simp [skipDash])⟩
  have hsplit : ∀ a b, (u.bytes.drop a).take b ++ u.bytes.drop (a + b) = u.bytes.drop a := by
    intro a b
    rw [← drop_drop, take_append_drop]
  have hread : readGroups groups (utf8 (display u)) = some u.bytes := by
    rw [htext, groups, (hgroup 8 _ _ _ (by simp [hlen]) (by decide)).1, (hgroup 4 _ _ _ (by simp [hlen]) (by decide)).2,
      (hgroup 4 _ _ _ (by simp [hlen]) (by decide)).2, (hgroup 4 _ _ _ (by simp [hlen]) (by decide)).2,
      ← append_nil (hexBytes (u.bytes.drop 10)), (hgroup 12 _ _ _ (by simp [hlen]) (by decide)).2]
    simp [readGroups, hsplit 8 2, hsplit 6 2, hsplit 4 2]
  have hsize : (utf8 (display u)).length = 36 := by
    rw [htext]
    simp [(hexDecode_hexBytes _).2, hlen]
  unfold parseString
  simp only [hsize]
  exact parseGroups_ok.mpr hread

/-- `text` is groups of `ns` characters, each of them with or without a dash in front,
and `digits` are the groups. -/
def Separated : List Nat → Bytes → Bytes → Prop
  | [], text, digits => text = [] ∧ digits = []
  | n :: ns, text, digits => ∃ g t ds, g.length = n ∧ (text = g ++ t ∨ text = dash :: (g ++ t)) ∧
      digits = g ++ ds ∧ Separated ns t ds

/-- The text is 32 digits that stand for `out`, with dashes at the group boundaries only. -/
def UuidText (text out : Bytes) : Prop :=
  text.head? ≠ some dash ∧ ∃ digits, Separated groups text digits ∧ hexDecode digits = some out

/-- What the loop leaves. -/
def remaining : List Nat → Bytes → Bytes
  | [], text => text
  | n :: ns, text => remaining ns ((skipDash text).drop n)

theorem Separated.remaining : ∀ {ns : List Nat} {text digits : Bytes}, Separated ns text digits →
    dash ∉ digits → 0 ∉ ns → remaining ns text = []
  | [], _, _, h, _, _ => h.1
  | n :: ns, text, digits, h, hd, hn => by
    obtain ⟨g, t, ds, hlen, htext, rfl, hrest⟩ := h
    simp only [mem_append, not_or, mem_cons] at hd hn
    have hg : g ≠ [] := fun h0 => hn.1 (by rw [← hlen, h0]; rfl)
    have hskip : skipDash text = g ++ t := by
      rcases htext with rfl | rfl
      · exact skipDash_of_notMem hd.1 hg
      · simp [skipDash]
    rw [UuidTrailingText.remaining, hskip, drop_left' hlen]
    exact hrest.remaining hd.2 hn.2

theorem separated_of_readGroups :
    ∀ {ns : List Nat} {text out : Bytes}, readGroups ns text = some out →
    remaining ns text = [] → ∃ digits, Separated ns text digits ∧ hexDecode digits = some out
  | [], text, out, h, hrest => by
    cases h
    exact ⟨[], ⟨hrest, rfl⟩, rfl⟩
  | n :: ns, text, out, h, hrest => by
    obtain ⟨decoded, bytes, hlen, hdec, hread, rfl⟩ := readGroups_cons h
    obtain ⟨ds, hsep, hds⟩ := separated_of_readGroups hread hrest
    refine ⟨(skipDash text).take n ++ ds, ⟨_, _, ds, length_take_of_le hlen, ?_, rfl, hsep⟩,
      hexDecode_append hdec hds⟩
    rw [take_append_drop]
    cases text with
    | nil => exact .inl rfl
    | cons b text => by_cases hb : b = dash <;> simp [skipDash, hb]

/-- **What holds.** Every UUID is read back from its display; and a text of 32 bytes or
more that is parsed is the text of its value if and only if it does not start with a
dash and nothing is left of it. -/
theorem uuid_text_iff (sha256 : Sha256) :
    (∀ u, parseString sha256 (display u) = .ok u) ∧
    ∀ (s : String) (u : Uuid), 32 ≤ (utf8 s).length → parseString sha256 s = .ok u →
      (UuidText (utf8 s) u.bytes ↔ (utf8 s).head? ≠ some dash ∧ remaining groups (utf8 s) = []) := by
  refine ⟨parseString_display sha256, fun s u hlen h => and_congr_right fun _ => ⟨?_, ?_⟩⟩
  · rintro ⟨digits, hsep, hdec⟩
    exact hsep.remaining (dash_notMem hdec) (by decide)
  · exact separated_of_readGroups (parseString_long h hlen)

def someSha256 : Sha256 := fun _ => constBytes 32 0

/-- 32 digits and an `x`, and 32 digits behind a dash. -/
theorem not_uuid_texts :
    (∃ u, parseString someSha256 "00000000000000000000000000000000x" = .ok u ∧
      ¬ UuidText (utf8 "00000000000000000000000000000000x") u.bytes) ∧
    ∃ u, parseString someSha256 "-00000000000000000000000000000000" = .ok u ∧
      ¬ UuidText (utf8 "-00000000000000000000000000000000") u.bytes := by
  refine ⟨⟨⟨List.replicate 16 0, rfl⟩, by decide, ?_⟩, ⟨⟨List.replicate 16 0, rfl⟩, by decide, fun h => h.1 (by decide)⟩⟩
  rintro ⟨-, digits, hsep, hdec⟩
  exact absurd (hsep.remaining (dash_notMem hdec) (by decide)) (by decide)

end Wrongsv.Bugs.UuidTrailingText
