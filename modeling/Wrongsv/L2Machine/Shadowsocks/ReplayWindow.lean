import Wrongsv.L2Machine.Shadowsocks.Udp

/-!
# Shadowsocks 2022: the replay window at machine width

`UdpReplayWindow` (shadowsocks/lib.rs:45-51, 229-262): the highest
packet number as a `u64`, a `u128` bitmap, and `check`, which changes the window in
place and fails with `ReplayDetected`.

Results, beside `check_wide`, `check_exact`:
* `tracks_after`: after any calls the window shows the set of accepted numbers.
-/
namespace Wrongsv.L2.Shadowsocks
open L1.Shadowsocks

structure UdpReplayWindow where
  highest : UInt64
  bitmap : BitVec 128
  initialized : Bool
  deriving DecidableEq, Repr

namespace UdpReplayWindow

def default : UdpReplayWindow := ⟨0, 0, false⟩

def aead2022UdpReplayWindow : UInt64 := 128

def check (self : UdpReplayWindow) (packetId : UInt64) :
    Except ShadowsocksError Unit × UdpReplayWindow :=
  if self.initialized = false then (.ok (), ⟨packetId, 1, true⟩)
  else if packetId > self.highest then
    let shift := packetId - self.highest
    let bitmap := if shift ≥ aead2022UdpReplayWindow then 0 else self.bitmap <<< shift.toNat
    (.ok (), { self with highest := packetId, bitmap := bitmap ||| 1 })
  else
    let offset := self.highest - packetId
    if offset ≥ aead2022UdpReplayWindow then (.error .replayDetected, self)
    else
      let bit := 1#128 <<< offset.toNat
      if self.bitmap &&& bit ≠ 0 then (.error .replayDetected, self)
      else (.ok (), { self with bitmap := self.bitmap ||| bit })

/-- The window after the calls `ids`, and the numbers they accepted. -/
def after : UdpReplayWindow → List UInt64 → UdpReplayWindow
  | self, [] => self
  | self, id :: ids => (self.check id).2.after ids

def accepted : UdpReplayWindow → List UInt64 → List UInt64
  | _, [] => []
  | self, id :: ids =>
    match self.check id with
    | (.ok (), next) => id :: next.accepted ids
    | (.error _, next) => next.accepted ids

/-! ## The window over the naturals -/

def wide (self : UdpReplayWindow) : ReplayWindow 128 :=
  ⟨self.highest.toNat, self.bitmap, self.initialized⟩

theorem ge_window_iff (n : UInt64) : n ≥ aead2022UdpReplayWindow ↔ 128 ≤ n.toNat := by
  rfl

/-- **A call is a step of the window over the naturals**: it fails and changes
nothing where that one refuses. -/
theorem check_wide (self : UdpReplayWindow) (id : UInt64) :
    (self.wide.check id.toNat = none ∧ self.check id = (.error .replayDetected, self)) ∨
      ∃ next, self.wide.check id.toNat = some next.wide ∧ self.check id = (.ok (), next) := by
  unfold check ReplayWindow.check wide
  cases hi : self.initialized
  · exact .inr ⟨⟨id, 1, true⟩, rfl, rfl⟩
  by_cases hlt : self.highest < id
  · have hlt' : self.highest.toNat < id.toNat := UInt64.lt_iff_toNat_lt.mp hlt
    have hsub : (id - self.highest).toNat = id.toNat - self.highest.toNat :=
      UInt64.toNat_sub_of_le _ _ (UInt64.le_of_lt hlt)
    right
    simp only [Bool.true_eq_false, if_false, gt_iff_lt, hlt, hlt', if_true, ge_window_iff, hsub]
    exact ⟨_, rfl, rfl⟩
  · have hle : id ≤ self.highest := UInt64.not_lt.mp hlt
    have hlt' : ¬ self.highest.toNat < id.toNat := fun h => hlt (UInt64.lt_iff_toNat_lt.mpr h)
    have hsub : (self.highest - id).toNat = self.highest.toNat - id.toNat :=
      UInt64.toNat_sub_of_le _ _ hle
    simp only [Bool.true_eq_false, if_false, gt_iff_lt, hlt, hlt', ge_window_iff, hsub]
    by_cases hold : 128 ≤ self.highest.toNat - id.toNat
    · simp [hold]
    by_cases hbit : self.bitmap &&& 1#128 <<< (self.highest.toNat - id.toNat) = 0#128
    · right
      simp only [hold, if_false]
      refine ⟨{ self with bitmap := self.bitmap ||| 1#128 <<< (self.highest.toNat - id.toNat) }, ?_, ?_⟩
      · simp [hbit, hi]
      · simp [hbit, hi]
    · left
      simp [hold, hbit]

/-! ## Runs -/

/-- The window shows exactly the numbers of `ids`. -/
def Shows (self : UdpReplayWindow) (ids : List UInt64) : Prop :=
  self.wide.Tracks { n | ∃ id ∈ ids, id.toNat = n }

theorem shows_default : default.Shows [] := by
  have hempty : { n | ∃ id ∈ ([] : List UInt64), id.toNat = n } = (∅ : Set Nat) := by ext; simp
  unfold Shows
  rw [hempty]
  exact ReplayWindow.tracks_new

section
variable {self next : UdpReplayWindow} {ids : List UInt64} {id : UInt64}

/-- **One call.** -/
theorem Shows.check_ok (h : self.Shows ids) (hc : self.check id = (.ok (), next)) :
    next.Shows (ids ++ [id]) := by
  rcases self.check_wide id with ⟨-, herr⟩ | ⟨next', hwide, hok⟩
  · rw [herr] at hc
    cases hc
  rw [hok] at hc
  cases hc
  have hset : { n | ∃ i ∈ ids ++ [id], i.toNat = n } = insert id.toNat { n | ∃ i ∈ ids, i.toNat = n } := by
    ext n
    simp [or_and_right, exists_or, or_comm, eq_comm]
  unfold Shows
  rw [hset]
  exact ReplayWindow.Tracks.check h (by decide) hwide

theorem check_error {e : ShadowsocksError} (hc : self.check id = (.error e, next)) :
    next = self := by
  rcases self.check_wide id with ⟨-, herr⟩ | ⟨_, -, hok⟩
  · rw [herr] at hc
    cases hc
    rfl
  · rw [hok] at hc
    cases hc

/-- **Any calls**: the window shows what it showed before and what they accepted. -/
theorem Shows.after (h : self.Shows ids) (calls : List UInt64) :
    (self.after calls).Shows (ids ++ self.accepted calls) := by
  induction calls generalizing self ids with
  | nil => simpa [UdpReplayWindow.after, accepted] using h
  | cons id calls ih =>
    unfold UdpReplayWindow.after accepted
    match hc : self.check id with
    | (.ok (), next) => simpa using ih (h.check_ok hc)
    | (.error e, next) => exact ih (check_error hc ▸ h)

/-- Which numbers a window accepts that shows `ids`. -/
theorem Shows.ok_iff (h : self.Shows ids) (id : UInt64) :
    (self.check id).1 = .ok () ↔ id ∉ ids ∧ ∀ a ∈ ids, a.toNat < id.toNat + 128 := by
  have hnone : self.wide.check id.toNat = none ↔ id ∈ ids ∨ ∃ a ∈ ids, id.toNat + 128 ≤ a.toNat := by
    rw [ReplayWindow.Tracks.check_eq_none_iff h]
    simp [UInt64.toNat_inj]
  rcases self.check_wide id with ⟨hwide, herr⟩ | ⟨next, hwide, hok⟩
  · rw [herr]
    rcases hnone.mp hwide with hmem | ⟨a, ha, hold⟩
    · simp [hmem]
    · simp only [reduceCtorEq, false_iff, not_and, not_forall]
      exact fun _ => ⟨a, ha, by omega⟩
  · rw [hok]
    rw [hwide] at hnone
    simpa using hnone

/-- The bitmap and the highest number of a window that shows `ids`. -/
theorem Shows.bit_iff (h : self.Shows ids) {i : Nat} (hi : i < 128) :
    self.bitmap.getLsbD i = true ↔ ∃ a ∈ ids, a.toNat + i = self.highest.toNat := by
  have := ReplayWindow.Tracks.bit_iff h i hi
  simpa [wide] using this

theorem Shows.highest (h : self.Shows ids) (hne : ids ≠ []) :
    self.highest ∈ ids ∧ ∀ a ∈ ids, a ≤ self.highest := by
  obtain ⟨first, hfirst⟩ := List.exists_mem_of_ne_nil ids hne
  have hinit : self.wide.initialized = true := h.initialized_iff.mpr ⟨_, first, hfirst, rfl⟩
  obtain ⟨a, ha, hmax⟩ := h.highest_mem hinit
  have haeq : a = self.highest := UInt64.toNat_inj.mp hmax
  refine ⟨haeq ▸ ha, fun b hb => ?_⟩
  exact UInt64.le_iff_toNat_le.mpr (h.le_highest _ ⟨b, hb, rfl⟩)

end

/-- **The replay window is exact.** After any calls on a new window, `highest` is the
highest number accepted, the next call accepts a number if and only if it was not
accepted before and is not 128 or more below the highest, and after that call bit
`i` is set if and only if the number `i` below the highest was accepted. -/
theorem check_exact (calls : List UInt64) (id : UInt64) :
    let window := default.after calls
    let earlier := default.accepted calls
    (earlier ≠ [] → window.highest ∈ earlier ∧ ∀ a ∈ earlier, a ≤ window.highest) ∧
      ((window.check id).1 = .ok () ↔
        id ∉ earlier ∧ (earlier ≠ [] → ¬ id.toNat + 128 ≤ window.highest.toNat)) ∧
      ∀ i < 128, ((default.after (calls ++ [id])).bitmap.getLsbD i = true ↔
        ∃ a ∈ default.accepted (calls ++ [id]), a.toNat + i = (default.after (calls ++ [id])).highest.toNat) := by
  intro window earlier
  have hshows : window.Shows earlier := by simpa using shows_default.after calls
  have hnext : (default.after (calls ++ [id])).Shows (default.accepted (calls ++ [id])) := by
    simpa using shows_default.after (calls ++ [id])
  refine ⟨hshows.highest, ?_, fun i hi => hnext.bit_iff hi⟩
  rw [hshows.ok_iff]
  refine and_congr_right fun _ => ⟨fun hall hne => ?_, fun hhigh a ha => ?_⟩
  · have := hall _ (hshows.highest hne).1
    omega
  · have hne : earlier ≠ [] := List.ne_nil_of_mem ha
    have hle := UInt64.le_iff_toNat_le.mp ((hshows.highest hne).2 a ha)
    have := hhigh hne
    omega

end UdpReplayWindow

end Wrongsv.L2.Shadowsocks
