import Wrongsv.L2Machine.Shadowsocks.Stream

/-!
# Shadowsocks: connection attempts on one configuration

All connections of a server share the replay cache of its configuration. A run is
a list of attempts, each with the clocks at its moment, the bytes behind the salt,
and the salt; `new_with_salt` accepts it or not, and changes the cache.

`attempt_spec`: an attempt that leaves a trace has a fixed header whose timestamp
is valid at its moment, and it is accepted only if its salt could be stored.
-/
namespace Wrongsv.L2.Shadowsocks
open L1.Shadowsocks

structure Attempt where
  clock : Clock
  inner : Schedule
  salt : Bytes

/-- The configuration, and the attempts that were accepted. -/
structure Server where
  config : ServerConfig
  accepted : List Attempt

section
variable (p : Primitives)

/-- server/handler/shadowsocks.rs:145 -/
def Server.attempt (s : Server) (a : Attempt) : Server :=
  match ShadowsocksReader.newWithSalt p a.clock a.inner s.config a.salt with
  | (.ok _, config) => ⟨config, s.accepted ++ [a]⟩
  | (.error _, config) => ⟨config, s.accepted⟩

def Server.run (s : Server) (attempts : List Attempt) : Server :=
  attempts.foldl (Server.attempt p) s

/-- The timestamp of a request whose fixed header can be opened. -/
def Attempt.timestamp (config : ServerConfig) (a : Attempt) : Option Nat :=
  match config.crypto p a.salt with
  | .error _ => none
  | .ok crypto =>
    match readSealed p aead2022RequestFixedHeaderLen (a.inner, crypto) with
    | (.error _, _) => none
    | (.ok fixedHeader, _) => some (ofBe ((fixedHeader.drop 1).take 8))

/-- What the cache makes of an attempt. -/
def Attempt.stored (config : ServerConfig) (a : Attempt) : Bool × ExpiringSet Bytes :=
  config.replayCache.store replayWindow a.clock.instant a.salt

section
variable {config : ServerConfig} {a : Attempt} {crypto : CryptoState}

theorem timestamp_of_readFixedHeader {len : Nat} {st : Schedule × CryptoState}
    (hcrypto : config.crypto p a.salt = .ok crypto)
    (h : readRequestFixedHeader p a.clock.wall (a.inner, crypto) = (.ok len, st)) : ∃ timestamp,
    a.timestamp p config = some timestamp ∧ validateTimestamp a.clock.wall timestamp = .ok () := by
  obtain ⟨fixedHeader, st₁, hsealed, hcheck⟩ := SealedReader.bind_ok h
  refine ⟨_, ?_, (parseFixedHeader_ok (congrArg Prod.fst hcheck)).1⟩
  simp only [Attempt.timestamp, hcrypto, hsealed]

/-- `new_with_salt` either fails before it looks at the cache, or stores the salt,
or finds it and fails. -/
theorem newWithSalt_cases (hm : config.method.isAead2022 = true) :
    (∃ e, ShadowsocksReader.newWithSalt p a.clock a.inner config a.salt = (.error e, config)) ∨
    ∃ timestamp result, a.timestamp p config = some timestamp ∧
      validateTimestamp a.clock.wall timestamp = .ok () ∧
      ShadowsocksReader.newWithSalt p a.clock a.inner config a.salt =
        (result, { config with replayCache := (a.stored config).2 }) ∧
      (∀ r, result = .ok r → (a.stored config).1 = true) := by
  have hm' : ¬ config.method.isAead2022 = false := ne_false_of_eq_true hm
  cases hcrypto : config.crypto p a.salt with
  | error e => exact .inl ⟨e, by simp only [ShadowsocksReader.newWithSalt, hcrypto]⟩
  | ok crypto =>
    rcases hfixed : readRequestFixedHeader p a.clock.wall (a.inner, crypto) with ⟨e | len, st⟩
    · exact .inl ⟨e, by simp only [ShadowsocksReader.newWithSalt, hcrypto, if_neg hm', hfixed]⟩
    · obtain ⟨timestamp, htimestamp, hvalid⟩ := timestamp_of_readFixedHeader p hcrypto hfixed
      refine .inr ?_
      rcases hstored : a.stored config with ⟨_ | _, cache⟩
      · have hcheck : config.checkAndStoreReplaySalt a.clock.instant a.salt =
            (.error .replayDetected, { config with replayCache := cache }) := by
          unfold Attempt.stored at hstored
          simp only [ServerConfig.checkAndStoreReplaySalt, if_neg hm', hstored]
        refine ⟨timestamp, .error .replayDetected, htimestamp, hvalid, ?_, fun r h => nomatch h⟩
        simp only [ShadowsocksReader.newWithSalt, hcrypto, if_neg hm', hfixed, hcheck]
      · have hcheck : config.checkAndStoreReplaySalt a.clock.instant a.salt =
            (.ok (), { config with replayCache := cache }) := by
          unfold Attempt.stored at hstored
          simp only [ServerConfig.checkAndStoreReplaySalt, if_neg hm', hstored]
        rcases hvariable : readRequestVariableHeader p len st with ⟨e | firstChunk, st'⟩
        · refine ⟨timestamp, .error e, htimestamp, hvalid, ?_, fun _ _ => rfl⟩
          simp only [ShadowsocksReader.newWithSalt, hcrypto, if_neg hm', hfixed, hcheck, hvariable]
        · refine ⟨timestamp, .ok ⟨st'.1, st'.2, config.method, [firstChunk], some a.salt⟩,
            htimestamp, hvalid, ?_, fun _ _ => rfl⟩
          simp only [ShadowsocksReader.newWithSalt, hcrypto, if_neg hm', hfixed, hcheck, hvariable]

end

/-- **One attempt.** It changes nothing, or it has a valid timestamp and goes
through the cache. -/
theorem attempt_spec {s : Server} (hm : s.config.method.isAead2022 = true) (a : Attempt) :
    s.attempt p a = s ∨ ∃ timestamp, a.timestamp p s.config = some timestamp ∧
    validateTimestamp a.clock.wall timestamp = .ok () ∧
      (s.attempt p a).config = { s.config with replayCache := (a.stored s.config).2 } ∧
      ((s.attempt p a).accepted = s.accepted ∨
        ((a.stored s.config).1 = true ∧ (s.attempt p a).accepted = s.accepted ++ [a])) := by
  rcases newWithSalt_cases p (a := a) hm with ⟨e, h⟩ | ⟨timestamp, result, htimestamp, hvalid, h, hok⟩
  · exact .inl (by simp only [Server.attempt, h])
  · refine .inr ⟨timestamp, htimestamp, hvalid, ?_⟩
    cases result with
    | error e => simp only [Server.attempt, h, true_and, true_or]
    | ok r => simp only [Server.attempt, h, hok r rfl, true_and, or_true]

end

end Wrongsv.L2.Shadowsocks
