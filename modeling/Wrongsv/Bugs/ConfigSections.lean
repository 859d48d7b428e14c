import Wrongsv.L2Machine.Server.Inbound

/-!
# Configurations with two ways to serve

`Config::validate` has no check for REALITY, AnyTLS and TLS among each other, and counts
the experimental inbounds without the VLESS transports other than XHTTP
(server/config.rs:1231-1262, 1484-1608). Of two such sections the first branch of the
dispatcher decides (handler/mod.rs:630-971). `detect_profile` has its own order, with TLS
at the end (src/endpoint/profile.rs:118-160), so the server may speak TLS while the
clients are configured for the other.

Spec clause: an accepted configuration has at most one section, it serves the
connections, and the client generators detect it.

Fix: count all sections in one list and reject more than one.
-/
namespace Wrongsv.Bugs.ConfigSections
open L2.Server L2.Server.Config

/-- One section at most, served and detected. -/
structure SelectsOne (config : Config) : Prop where
  atMostOne : ∀ s t, config.has s = true → config.has t = true → s = t
  /-- The server and the client generators choose the same. -/
  agree : ∀ s, runUntilShutdown config = .serves s ↔ detectProfile (some config) none = .of s
  raw : runUntilShutdown config = .vless ↔ detectProfile (some config) none = .raw
  /-- No section is ignored. -/
  served : ∀ s, config.has s = true → runUntilShutdown config = .serves s

/-- The sections `validate` does not keep apart are kept apart. -/
structure Apart (config : Config) : Prop where
  tlsLayers : ∀ s ∈ [Section.reality, .anytls, .tls], ∀ t ∈ [Section.reality, .anytls, .tls],
    config.has s = true → config.has t = true → s = t
  experimental : ∀ s t, s.kind = .experimental → t ∈ vlessTransports →
    config.has s = true → config.has t = false

/-! ## What `validate` keeps apart -/

section
variable {p : ConfigPrimitives} {config : Config} (h : Valid p config) {s t : Section}
include h

theorem not_datagram_transport (hs : s.kind = .datagram) (ht : t ∈ vlessTransports) (hne : t ≠ s)
    (hps : config.has s = true) : config.has t = false := by
  obtain ⟨name, rfl⟩ := exists_datagramTransport hs
  obtain ⟨-, hframing, htls, hconflicts, -⟩ := datagram_alone h name hps
  rcases mem_vlessTransports.mp ht with ht | ht | ht
  · exact hasAny_eq_false.mp hconflicts t (mem_datagramConflicts.mpr ⟨ht, hne⟩)
  · exact hasAny_eq_false.mp hframing t (mem_streamFraming.mpr ht)
  · exact hasAny_eq_false.mp htls t (mem_tlsLayers.mpr ht)

/-- A framing transport has no other framing transport and no TLS layer beside it. -/
theorem not_framing_transport (hs : s.kind = .framing) (ht : t.kind = .framing ∨ t.kind = .tlsLayer)
    (hne : t ≠ s) (hps : config.has s = true) : config.has t = false := by
  obtain ⟨name, rfl⟩ := exists_framingTransport hs
  obtain ⟨-, hconflicts, htls⟩ := framing_alone h name hps
  rcases ht with ht | ht
  · exact hasAny_eq_false.mp hconflicts t (mem_framingConflicts.mpr (.inl ⟨ht, hne⟩))
  · exact hasAny_eq_false.mp htls t (mem_tlsLayers.mpr ht)

variable (hapart : Apart config)
include hapart

theorem not_inbound_transport (hs : s.kind = .nonVless ∨ s.kind = .experimental)
    (ht : t ∈ vlessTransports) (hps : config.has s = true) : config.has t = false := by
  rcases hs with hs | hs
  · exact hasAny_eq_false.mp (nonVless_alone h (mem_nonVlessInbounds.mpr hs) hps).2 t ht
  · exact hapart.experimental s t hs ht hps

/-- ShadowTLS has a check of its own; the other TLS layers are left to `Apart`. -/
theorem eq_of_tlsLayers (hs : s.kind = .tlsLayer) (ht : t.kind = .tlsLayer)
    (hps : config.has s = true) (hpt : config.has t = true) : s = t := by
  have hcases : ∀ {u : Section}, u.kind = .tlsLayer → u = .shadowtls ∨ u ∈ [Section.reality, .anytls, .tls] := by
    intro u hu
    simpa [tlsLayers, or_comm, or_assoc, or_left_comm] using mem_tlsLayers.mpr hu
  have hshadow : ∀ {u : Section}, u ∈ [Section.reality, .anytls, .tls] → config.has .shadowtls = true →
      config.has u = false :=
    fun hu hst => hasAny_eq_false.mp (shadowtls_alone h hst) _ hu
  rcases hcases hs with rfl | hs <;> rcases hcases ht with rfl | ht
  · rfl
  · simp [hshadow ht hps] at hpt
  · simp [hshadow hs hpt] at hps
  · exact hapart.tlsLayers s hs t ht hps hpt

/-- Two transports: the check of a datagram transport covers all others, that of a
framing transport what is left. -/
theorem eq_of_transports (hs : s ∈ vlessTransports) (ht : t ∈ vlessTransports)
    (hps : config.has s = true) (hpt : config.has t = true) : s = t := by
  by_contra hne
  rcases mem_vlessTransports.mp hs with hsd | hs'
  · simp [not_datagram_transport h hsd ht (Ne.symm hne) hps] at hpt
  rcases mem_vlessTransports.mp ht with htd | ht'
  · simp [not_datagram_transport h htd hs hne hpt] at hps
  rcases hs' with hsf | hst
  · simp [not_framing_transport h hsf ht' (Ne.symm hne) hps] at hpt
  rcases ht' with htf | htt
  · simp [not_framing_transport h htf (.inr hst) hne hpt] at hps
  exact hne (eq_of_tlsLayers h hapart hst htt hps hpt)

/-- **With the gaps closed, one section at most.** -/
theorem atMostOne_of_apart (hps : config.has s = true) (hpt : config.has t = true) : s = t := by
  have hkinds : ∀ u : Section, u ∈ vlessTransports ∨ u.kind = .nonVless ∨ u.kind = .experimental := by
    intro u
    cases u <;> decide
  rcases hkinds s with hs | hs <;> rcases hkinds t with ht | ht
  · exact eq_of_transports h hapart hs ht hps hpt
  · simp [not_inbound_transport h hapart ht hs hpt] at hps
  · simp [not_inbound_transport h hapart hs ht hps] at hpt
  · exact counted_alone h (mem_countedInbounds.mpr (.inl hs)) (mem_countedInbounds.mpr (.inl ht)) hps hpt

end

/-! ## What is selected -/

section
variable {config : Config} (hone : ∀ s t, config.has s = true → config.has t = true → s = t)
include hone

theorem selectsOne_of_atMostOne : SelectsOne config := by
  by_cases hany : ∃ s, config.has s = true
  · obtain ⟨s, hs⟩ := hany
    have honly : ∀ t, config.has t = true → t = s := fun t ht => hone t s ht hs
    have hrun := runUntilShutdown_of_only hs honly
    have hdetect := detectProfile_of_only hs honly
    refine ⟨hone, fun t => ?_, ?_, fun t ht => ?_⟩
    · simp [hrun, hdetect]
    · simp [hrun, hdetect]
    · rw [hrun, honly t ht]
  · have hnone : ∀ s, config.has s = false := by simpa using hany
    refine ⟨hone, fun t => ?_, ?_, fun t ht => ?_⟩
    · simp [runUntilShutdown_of_none hnone, detectProfile_of_none hnone]
    · simp [runUntilShutdown_of_none hnone, detectProfile_of_none hnone]
    · rw [hnone] at ht
      cases ht

theorem apart_of_atMostOne : Apart config := by
  refine ⟨fun s _ t _ => hone s t, fun s t hs ht hps => ?_⟩
  by_contra hpt
  obtain rfl := hone s t hps (by simpa using hpt)
  rw [mem_vlessTransports, hs] at ht
  simp at ht

end

/-- **Exactly the configurations without these pairs.** An accepted configuration has at
most one section, served and detected, if and only if it has at most one of REALITY,
AnyTLS and TLS, and no experimental inbound beside a VLESS transport. -/
theorem selectsOne_iff (p : ConfigPrimitives) (config : Config) (h : config.validate p = .ok ()) :
    SelectsOne config ↔ Apart config := by
  constructor
  · intro hsel
    exact apart_of_atMostOne hsel.atMostOne
  · intro hapart
    exact selectsOne_of_atMostOne fun s t => atMostOne_of_apart (validate_ok h) hapart

/-! ## Counterexample -/

/-- Nothing the configurations below ask for. -/
def noPrimitives : ConfigPrimitives where
  sha256 _ := constBytes 32 0
  base64Decode _ := none
  parseIpAddr _ := none
  isSocketAddr _ := false

def someUser : UserConfig := { id := "12345678-1234-1234-1234-123456789abc", email := "user@test" }

theorem selectsOne_iff_websocket :
    SelectsOne { listen := "0.0.0.0:443", users := [someUser], websocket := some {} } ↔
      Apart { listen := "0.0.0.0:443", users := [someUser], websocket := some {} } :=
  selectsOne_iff noPrimitives _ (by decide +kernel)

def tlsAndLua : Config :=
  { listen := "0.0.0.0:443", users := [someUser], tls := some {}, lua := some {} }

def realityAndAnytls : Config :=
  { listen := "0.0.0.0:443", users := [someUser], reality := some { privateKey := "00" },
    anytls := some { password := "secret" } }

/-- **TLS and Lua** are accepted together; the server speaks TLS, the client generators
detect Lua. REALITY and AnyTLS are accepted together, and AnyTLS is ignored. -/
theorem tls_and_lua : tlsAndLua.validate noPrimitives = .ok () ∧ runUntilShutdown tlsAndLua =
      .serves .tls ∧ detectProfile (some tlsAndLua) none = .of .lua ∧
      ¬ SelectsOne tlsAndLua ∧
      realityAndAnytls.validate noPrimitives = .ok () ∧
      runUntilShutdown realityAndAnytls = .serves .reality ∧
      realityAndAnytls.has .anytls = true := by
  refine ⟨by decide +kernel, by decide, by decide, ?_, by decide +kernel, by decide, by decide⟩
  intro hsel
  exact absurd (hsel.atMostOne .tls .lua rfl rfl) (by decide)

end Wrongsv.Bugs.ConfigSections
