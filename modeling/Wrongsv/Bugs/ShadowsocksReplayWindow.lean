import Wrongsv.L2Machine.Shadowsocks.RoundTrip
import Wrongsv.L2Machine.Shadowsocks.Server

/-!
# Shadowsocks 2022: the replay cache forgets too early

A request is valid while its timestamp differs from the server's clock by at most 30 whole
seconds (shadowsocks/lib.rs:751-758). One that is stamped 30 seconds ahead is valid up to
the end of second n + 60, almost 61 seconds. Its salt is dropped from the cache after 60
seconds (:177-181). In between a copy of the request is accepted.

Fix: a window of 61 seconds or more.
-/
namespace Wrongsv.Bugs.ShadowsocksReplayWindow
open L1.Shadowsocks L2.Shadowsocks List

/-! ## Moments -/

/-- A moment on a host where the wall clock is `offset` ahead of the monotonic one. -/
def At (offset : Int) (clock : Clock) : Prop := clock.wall.nanos = clock.instant + offset

/-- The attempts are in the order of their moments. -/
structure Timeline (offset : Int) (attempts : List Attempt) : Prop where
  together : ∀ a ∈ attempts, At offset a.clock
  ordered : attempts.Pairwise (fun a b => a.clock.instant ≤ b.clock.instant)

theorem Timeline.tail {offset : Int} {a : Attempt} {attempts : List Attempt} (h : Timeline offset (a :: attempts)) :
    Timeline offset attempts ∧ ∀ b ∈ attempts, a.clock.instant ≤ b.clock.instant := by
  obtain ⟨hfirst, hrest⟩ := List.pairwise_cons.mp h.ordered
  exact ⟨⟨fun b hb => h.together b (mem_cons_of_mem _ hb), hrest⟩, hfirst⟩

/-- If the request can be opened, it is stamped less than 30 seconds ahead of the
clock at the moment of the attempt. -/
def NotAhead (p : Primitives) (config : ServerConfig) (a : Attempt) : Prop :=
  ∀ timestamp secs, a.timestamp p config = some timestamp → unixTimeSecs a.clock.wall = .ok secs →
    timestamp < secs + maxTimeDiffSecs

theorem validateTimestamp_ok {now : SystemTime} {timestamp : Nat} (h : validateTimestamp now timestamp = .ok ()) :
    ∃ secs, unixTimeSecs now = .ok secs ∧ secs ≤ timestamp + maxTimeDiffSecs ∧ timestamp ≤ secs + maxTimeDiffSecs := by
  unfold validateTimestamp at h
  cases hsecs : unixTimeSecs now with
  | error e => simp only [hsecs] at h; cases h
  | ok secs =>
    simp only [hsecs] at h
    split at h
    · cases h
    · exact ⟨secs, rfl, by omega, by omega⟩

theorem unixTimeSecs_ok {now : SystemTime} {secs : Nat} (h : unixTimeSecs now = .ok secs) :
    (secs * nanosPerSec : Int) ≤ now.nanos ∧ now.nanos < (secs + 1) * nanosPerSec := by
  unfold unixTimeSecs at h
  split at h
  · cases h
  cases h
  simp only [nanosPerSec] at *
  omega

/-- **The two windows.** A request that was not ahead when it was accepted is valid
for at most 60 seconds. -/
theorem within_replayWindow {offset : Int} {first later : Clock} (hfirst : At offset first) (hlater : At offset later)
    {timestamp secs : Nat} (hsecs : unixTimeSecs first.wall = .ok secs) (hahead : timestamp < secs + maxTimeDiffSecs)
    (hvalid : validateTimestamp later.wall timestamp = .ok ()) :
    later.instant - first.instant ≤ replayWindow := by
  obtain ⟨secs', hsecs', hle, -⟩ := validateTimestamp_ok hvalid
  have h1 := (unixTimeSecs_ok hsecs).1
  have h2 := (unixTimeSecs_ok hsecs').2
  rw [hfirst] at h1
  rw [hlater] at h2
  simp only [replayWindow, nanosPerSec, maxTimeDiffSecs] at *
  omega

/-! ## Runs -/

section
variable (p : Primitives) (config : ServerConfig) (offset : Int)

/-- What is known of an accepted attempt when the clock has reached `now`. -/
structure Remembered (cache : ExpiringSet Bytes) (now : Nat) (a : Attempt) : Prop where
  moment : At offset a.clock
  notAhead : NotAhead p config a
  valid : ∃ timestamp, a.timestamp p config = some timestamp ∧ validateTimestamp a.clock.wall timestamp = .ok ()
  cached : now - a.clock.instant ≤ replayWindow → (a.clock.instant, a.salt) ∈ cache

/-- The invariant of a run, once the clock has reached `now`. -/
structure Inv (now : Nat) (s : Server) : Prop where
  method : s.config.method = config.method
  password : s.config.password = config.password
  ordered : ExpiringSet.Ordered now s.config.replayCache
  accepted : ∀ a ∈ s.accepted, Remembered p config offset s.config.replayCache now a

variable {p config offset} {now : Nat} {s : Server} {a : Attempt}

theorem Inv.timestamp (h : Inv p config offset now s) (a : Attempt) :
    a.timestamp p s.config = a.timestamp p config := by
  have hcrypto : s.config.crypto p a.salt = config.crypto p a.salt := by
    unfold ServerConfig.crypto ServerConfig.masterKey
    rw [h.method, h.password]
  unfold Attempt.timestamp
  rw [hcrypto]

theorem Inv.mono (h : Inv p config offset now s) {now' : Nat} (hle : now ≤ now') :
    Inv p config offset now' s where
  method := h.method
  password := h.password
  ordered := ⟨h.ordered.pairwise, fun e he => Nat.le_trans (h.ordered.past e he) hle⟩
  accepted b hb :=
    have hr := h.accepted b hb
    ⟨hr.moment, hr.notAhead, hr.valid, fun hw => hr.cached (by omega)⟩

/-- A copy of an accepted request that is still valid finds its salt. -/
theorem Inv.refuses (h : Inv p config offset now s) (ha : a ∈ s.accepted) {clock : Clock} (hat : At offset clock)
    (hle : now ≤ clock.instant) {timestamp : Nat} (ht : a.timestamp p config = some timestamp)
    (hvalid : validateTimestamp clock.wall timestamp = .ok ()) :
    (s.config.replayCache.store replayWindow clock.instant a.salt).1 = false := by
  have hr := h.accepted a ha
  obtain ⟨timestamp', ht', hvalid'⟩ := hr.valid
  obtain ⟨secs, hsecs, -, -⟩ := validateTimestamp_ok hvalid'
  have hwindow := within_replayWindow hr.moment hat hsecs (hr.notAhead timestamp secs ht hsecs) hvalid
  rw [ExpiringSet.store_refuses_iff h.ordered.pairwise]
  exact ⟨a.clock.instant, hr.cached (by omega), hwindow⟩

variable (hm : config.method.isAead2022 = true)
include hm

/-- **The step.** -/
theorem Inv.attempt (h : Inv p config offset now s)
    (hle : now ≤ a.clock.instant) (hat : At offset a.clock) (hahead : NotAhead p config a) :
    Inv p config offset a.clock.instant (s.attempt p a) := by
  have h' := h.mono hle
  rcases attempt_spec p (s := s) (by rw [h.method]; exact hm) a with hsame | ⟨timestamp, ht, hvalid, hconfig, hacc⟩
  · rw [hsame]
    exact h'
  · have hordered : ExpiringSet.Ordered a.clock.instant (a.stored s.config).2 :=
      h'.ordered.store (Nat.le_refl _)
    have hold : ∀ b ∈ s.accepted, Remembered p config offset (a.stored s.config).2 a.clock.instant b := by
      intro b hb
      have hr := h'.accepted b hb
      exact ⟨hr.moment, hr.notAhead, hr.valid, fun hw =>
        ExpiringSet.mem_store_of_mem h'.ordered.pairwise (hr.cached hw) hw⟩
    refine ⟨by rw [hconfig]; exact h.method, by rw [hconfig]; exact h.password, by rw [hconfig]; exact hordered, ?_⟩
    intro b hb
    rw [hconfig]
    rcases hacc with hacc | ⟨hstored, hacc⟩
    · rw [hacc] at hb
      exact hold b hb
    · rw [hacc] at hb
      rcases List.mem_append.mp hb with hb | hb
      · exact hold b hb
      · rw [List.mem_singleton.mp hb]
        rw [h.timestamp] at ht
        exact ⟨hat, hahead, ⟨timestamp, ht, hvalid⟩, fun _ => ExpiringSet.mem_store hstored⟩

/-- **Whole runs.** -/
theorem Inv.run (attempts : List Attempt) :
    ∀ {now : Nat} {s : Server}, Inv p config offset now s → Timeline offset attempts →
      (∀ a ∈ attempts, NotAhead p config a) → (∀ a ∈ attempts, now ≤ a.clock.instant) →
      ∀ {later : Nat}, now ≤ later → (∀ a ∈ attempts, a.clock.instant ≤ later) →
        Inv p config offset later (s.run p attempts) := by
  induction attempts with
  | nil =>
    intro now s h _ _ _ later hle _
    exact h.mono hle
  | cons a attempts ih =>
    intro now s h ht hahead hnow later _ hlater
    obtain ⟨hrest, hfirst⟩ := ht.tail
    have hstep := h.attempt hm (hnow a mem_cons_self) (ht.together a mem_cons_self)
      (hahead a mem_cons_self)
    exact ih hstep hrest (fun b hb => hahead b (mem_cons_of_mem _ hb)) hfirst (hlater a mem_cons_self)
      (fun b hb => hlater b (mem_cons_of_mem _ hb))

/-- Requests with the same salt are copies: they have the same timestamp. -/
def CopiesOnly (p : Primitives) (config : ServerConfig) (attempts : List Attempt) : Prop :=
  ∀ a ∈ attempts, ∀ b ∈ attempts, a.salt = b.salt → ∀ t t', a.timestamp p config = some t →
    b.timestamp p config = some t' → t = t'

/-- No two accepted requests have the same salt. -/
def NoReplay (s : Server) : Prop := s.accepted.Pairwise (fun a b => a.salt ≠ b.salt)

theorem NoReplay.attempt {all : List Attempt}
    (hcopies : CopiesOnly p config all) (h : Inv p config offset now s) (hall : ∀ b ∈ s.accepted, b ∈ all)
    (hno : NoReplay s) (hle : now ≤ a.clock.instant) (hat : At offset a.clock) (ha : a ∈ all) :
    NoReplay (s.attempt p a) ∧ ∀ b ∈ (s.attempt p a).accepted, b ∈ all := by
  rcases attempt_spec p (s := s) (by rw [h.method]; exact hm) a with hsame | ⟨t, ht, hvalid, -, hacc⟩
  · rw [hsame]
    exact ⟨hno, hall⟩
  · rcases hacc with hacc | ⟨hstored, hacc⟩
    · rw [NoReplay, hacc]
      exact ⟨hno, hall⟩
    · rw [NoReplay, hacc]
      constructor
      · refine List.pairwise_append.mpr ⟨hno, pairwise_singleton _ _, fun b hb a' ha' hsalt => ?_⟩
        rw [List.mem_singleton.mp ha'] at hsalt
        rw [h.timestamp] at ht
        obtain ⟨t', ht', -⟩ := (h.accepted b hb).valid
        rw [hcopies b (hall b hb) a ha hsalt t' t ht' ht] at ht'
        have hrefused := h.refuses hb hat hle ht' hvalid
        rw [Attempt.stored, ← hsalt, hrefused] at hstored
        cases hstored
      · intro b hb
        rcases List.mem_append.mp hb with hb | hb
        · exact hall b hb
        · rw [List.mem_singleton.mp hb]
          exact ha

theorem NoReplay.run {all : List Attempt} (hcopies : CopiesOnly p config all) (attempts : List Attempt) :
    ∀ {now : Nat} {s : Server}, Inv p config offset now s → (∀ b ∈ s.accepted, b ∈ all) → NoReplay s →
      Timeline offset attempts → (∀ a ∈ attempts, NotAhead p config a) → (∀ a ∈ attempts, a ∈ all) →
      (∀ a ∈ attempts, now ≤ a.clock.instant) → NoReplay (s.run p attempts) := by
  induction attempts with
  | nil =>
    intro now s _ _ hno _ _ _ _
    exact hno
  | cons a attempts ih =>
    intro now s h hall hno ht hahead hmem hnow
    obtain ⟨hrest, hfirst⟩ := ht.tail
    have hle := hnow a mem_cons_self
    have hat := ht.together a mem_cons_self
    obtain ⟨hno', hall'⟩ := hno.attempt hm hcopies h hall hle hat (hmem a mem_cons_self)
    exact ih (h.attempt hm hle hat (hahead a mem_cons_self)) hall' hno' hrest
      (fun b hb => hahead b (mem_cons_of_mem _ hb)) (fun b hb => hmem b (mem_cons_of_mem _ hb)) hfirst

/-- At every moment behind the attempts at which a copy of an accepted request is
valid, its salt is refused. -/
def RemembersValid (p : Primitives) (config : ServerConfig) (offset : Int) (attempts : List Attempt)
    (s : Server) : Prop :=
  ∀ a ∈ s.accepted, ∀ clock, At offset clock → (∀ b ∈ attempts, b.clock.instant ≤ clock.instant) →
    ∀ timestamp, a.timestamp p config = some timestamp → validateTimestamp clock.wall timestamp = .ok () →
      (s.config.checkAndStoreReplaySalt clock.instant a.salt).1 = .error .replayDetected

end

/-! ## Result -/

/-- A server of a 2022 method that has just been started. -/
structure FreshServer where
  config : ServerConfig
  method : config.method.isAead2022 = true
  empty : config.replayCache = []

def FreshServer.start (x : FreshServer) : Server := ⟨x.config, []⟩

theorem FreshServer.inv (p : Primitives) (offset : Int) (x : FreshServer) :
    Inv p x.config offset 0 x.start where
  method := rfl
  password := rfl
  ordered := by
    show ExpiringSet.Ordered 0 x.config.replayCache
    rw [x.empty]
    exact ExpiringSet.ordered_nil
  accepted _ ha := nomatch ha

/-- The request of second 100 reaches the server when its monotonic clock, which
started at second 70, shows `instant` nanoseconds. -/
def pingAt (instant : Nat) (h : (instant + 70 * nanosPerSec : Int) < 2 ^ 63 * nanosPerSec) :
    Attempt where
  clock := ⟨⟨instant + 70 * nanosPerSec, h⟩, instant⟩
  inner := ⟨pingRequest.writer.inner.drop 16, []⟩
  salt := pingRequest.salt

def pingServer : FreshServer := ⟨pingRequest.config, rfl, rfl⟩

theorem pingAt_timeline {t t' : Nat} (ht : t ≤ t') (h : (t + 70 * nanosPerSec : Int) < 2 ^ 63 * nanosPerSec)
    (h' : (t' + 70 * nanosPerSec : Int) < 2 ^ 63 * nanosPerSec) :
    Timeline (70 * nanosPerSec) [pingAt t h, pingAt t' h'] := by
  refine ⟨fun a ha => ?_, List.pairwise_pair.mpr ht⟩
  rcases List.mem_pair.mp ha with rfl | rfl <;> rfl

/-- **Replays.** In every run whose requests are stamped less than 30 seconds
ahead of the server: a salt is remembered as long as a copy of its request is
valid; and if no salt is used for two requests, no two accepted requests have the
same salt. -/
theorem no_replay_of_notAhead (p : Primitives) (x : FreshServer) (offset : Int) (attempts : List Attempt)
    (htimeline : Timeline offset attempts) (hahead : ∀ a ∈ attempts, NotAhead p x.config a) :
    RemembersValid p x.config offset attempts (x.start.run p attempts) ∧
      (CopiesOnly p x.config attempts → NoReplay (x.start.run p attempts)) := by
  have hstart := x.inv p offset
  constructor
  · intro a ha clock hat hlater timestamp ht hvalid
    have hrun := hstart.run x.method attempts htimeline hahead (fun _ _ => Nat.zero_le _)
      (Nat.zero_le clock.instant) hlater
    have hrefused := hrun.refuses ha hat (Nat.le_refl _) ht hvalid
    have hm : ¬ (x.start.run p attempts).config.method.isAead2022 = false := by
      rw [hrun.method]
      exact ne_false_of_eq_true x.method
    generalize hstore : ExpiringSet.store replayWindow clock.instant a.salt (x.start.run p attempts).config.replayCache =
      stored at hrefused
    obtain ⟨_, cache⟩ := stored
    cases hrefused
    simp only [ServerConfig.checkAndStoreReplaySalt, if_neg hm, hstore]
  · intro hcopies
    exact NoReplay.run x.method hcopies attempts hstart (forall_mem_nil _) .nil htimeline hahead
      (fun _ ha => ha) (fun _ _ => Nat.zero_le _)

/-- At second 101, and again at second 102. -/
theorem no_replay_next_second :
    Timeline (70 * nanosPerSec) [pingAt 31000000000 (by decide), pingAt 32000000000 (by decide)] ∧
      NoReplay (pingServer.start.run .transparent
        [pingAt 31000000000 (by decide), pingAt 32000000000 (by decide)]) := by
  have htimestamp : ∀ instant h, (pingAt instant h).timestamp .transparent pingServer.config = some 100 :=
    fun _ _ => rfl
  have htimeline : Timeline (70 * nanosPerSec) [pingAt 31000000000 (by decide), pingAt 32000000000 (by decide)] :=
    pingAt_timeline (by decide) _ _
  have hahead : ∀ a ∈ [pingAt 31000000000 (by decide), pingAt 32000000000 (by decide)],
      NotAhead .transparent pingServer.config a := by
    intro a ha timestamp secs ht hsecs
    rcases List.mem_pair.mp ha with rfl | rfl
    · cases (htimestamp _ _).symm.trans ht
      cases (show unixTimeSecs (pingAt 31000000000 (by decide)).clock.wall = .ok 101 from rfl).symm.trans hsecs
      decide
    · cases (htimestamp _ _).symm.trans ht
      cases (show unixTimeSecs (pingAt 32000000000 (by decide)).clock.wall = .ok 102 from rfl).symm.trans hsecs
      decide
  refine ⟨htimeline, (no_replay_of_notAhead .transparent pingServer _ _ htimeline hahead).2 ?_⟩
  intro a ha b hb _ t t' ht ht'
  rcases List.mem_pair.mp ha with rfl | rfl <;> rcases List.mem_pair.mp hb with rfl | rfl <;>
    exact Option.some.inj (ht.symm.trans ht')

/-- At second 70 exactly the request of second 100 is valid. Half a second into
second 130 it still is, and its salt, stored 60.5 seconds ago, is forgotten. -/
theorem copy_accepted_after_60_seconds :
    Timeline (70 * nanosPerSec) [pingAt 0 (by decide), pingAt 60500000000 (by decide)] ∧
      ¬ NoReplay (pingServer.start.run .transparent [pingAt 0 (by decide), pingAt 60500000000 (by decide)]) := by
  have haccepted : (pingServer.start.run .transparent
      [pingAt 0 (by decide), pingAt 60500000000 (by decide)]).accepted =
      [pingAt 0 (by decide), pingAt 60500000000 (by decide)] := rfl
  refine ⟨pingAt_timeline (by decide) _ _, fun hno => ?_⟩
  rw [NoReplay, haccepted, pairwise_pair] at hno
  exact hno rfl

end Wrongsv.Bugs.ShadowsocksReplayWindow
