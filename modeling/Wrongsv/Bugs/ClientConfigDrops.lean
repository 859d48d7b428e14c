import Wrongsv.Bugs.ClientConfigKeys

/-!
# Client configurations: components that an export leaves out

`validate_client_format_support` (src/client_config/mod.rs:62-229) asks whether the protocol
may have the active components, not whether the format prints them. No format prints the
obfuscation of Hysteria2 (:444,741) or the Vision flow behind AnyTLS (:478,879), and mihomo
prints ShadowTLS as plain TLS. Such an export is offered, and the client does not get through.

Fix: reject what the format does not print.
-/
namespace Wrongsv.Bugs.ClientConfigDrops
open L2.Server ClientConfigKeys List

def Active (e : Export) (cfg : Config) (x : Component) : Prop :=
  (e.values cfg).endpoint.hasComponent x = true

def clientSide : List Component :=
  [.vision, .anyTls, .shadowTls, .hysteriaSalamander, .hysteriaGecko]

/-- What the server checks of a component. -/
def parameter (e : Export) (cfg : Config) : Component → String
  | .vision => (e.values cfg).flow
  | .anyTls => (e.values cfg).anytlsPassword
  | .shadowTls => (e.values cfg).shadowtlsPassword
  | _ => ((cfg.hysteria2.bind (·.obfs)).map (·.password)).getD ""

/-- Whoever has the document knows the component: every configuration with this document
has it, with the same parameter. -/
def Represented (e : Export) (cfg : Config) (doc : Json) (x : Component) : Prop :=
  ∀ (e' : Export) (cfg' : Config), e'.format = e.format → e'.generate cfg' = .ok doc →
    Active e' cfg' x ∧ parameter e' cfg' x = parameter e cfg x

/-- No obfuscation, ShadowTLS for sing-box only, and no Vision with AnyTLS. -/
structure Kept (e : Export) (cfg : Config) : Prop where
  salamander : ¬ Active e cfg .hysteriaSalamander
  gecko : ¬ Active e cfg .hysteriaGecko
  shadowTls : Active e cfg .shadowTls → e.format = .singBox
  vision : Active e cfg .vision → ¬ Active e cfg .anyTls

section
variable {host name host' name' : String} {v v' : ClientConfigValues} {format : ClientFormat}

/-- What the profile of a configuration says of its components. -/
theorem values_components (e : Export) (cfg : Config) :
    (Active e cfg .vision ↔ (e.values cfg).endpoint.protocol = .vless ∧
      (e.values cfg).endpoint.transport ∉ [some .meek, some .gdocsViewer] ∧ (e.values cfg).flow = "xtls-rprx-vision") ∧
    (Active e cfg .anyTls → (e.values cfg).endpoint.protocol = .vless ∧ ¬ Active e cfg .shadowTls ∧
      detectProfile (some cfg) e.transport = .of .anytls) ∧
    (Active e cfg .shadowTls → (e.values cfg).endpoint.protocol = .vless ∧
      detectProfile (some cfg) e.transport = .of .shadowtls) ∧
    (Active e cfg .hysteriaSalamander ∨ Active e cfg .hysteriaGecko →
      detectProfile (some cfg) e.transport = .of .hysteria2 ∧ ∃ h2 o, cfg.hysteria2 = some h2 ∧ h2.obfs = some o) := by
  have hmodel : (e.values cfg).endpoint =
      buildEndpointModel (some cfg) (detectProfile (some cfg) e.transport) (e.values cfg).flow := rfl
  unfold Active
  rw [hmodel]
  generalize (e.values cfg).flow = flow
  generalize detectProfile (some cfg) e.transport = profile
  unfold buildEndpointModel EndpointModel.fromProfile EndpointModel.refine
  simp only [Option.elim]
  generalize hasConfiguredFallbackDestination (some cfg) profile = fallback
  rcases profile with _ | s <;> try cases s
  all_goals by_cases hflow : flow = "xtls-rprx-vision" <;> simp only
  all_goals repeat' split
  all_goals simp [EndpointModel.fromProfile.quic, EndpointModel.fromProfile.both,
    EndpointModel.vlessModel, EndpointModel.hasComponent, hflow]
  -- the obfuscation of Hysteria2
  all_goals split_ifs <;> simp_all

def exported : List ProxyProtocol :=
  [.vmess, .wireGuard, .shadowsocks, .trojan, .hysteria2, .tuic, .vless]

theorem exported_of_ok (h : validateClientFormatSupport format v.endpoint = .ok ())
    (hformat : format ≠ .xray) : v.endpoint.protocol ∈ exported ∧ (v.endpoint.protocol = .vless →
      v.endpoint.transport ∉ [some .meek, some .gdocsViewer]) := by
  cases hp : v.endpoint.protocol <;> simp_all [validateClientFormatSupport, exported]

theorem flow_not_mem (j : Json) : ("flow", j) ∉ mihomoSecurity v ∧ ("flow", j) ∉ mihomoTransport v ∧
    ("flow", j) ∉ payloadFields v ∧ ("flow", j) ∉ singboxTls v ∧ ("flow", j) ∉ singboxTransport v := by
  unfold mihomoSecurity mihomoTransport payloadFields singboxTls singboxTransport
  refine ⟨?_, ?_, ?_, ?_, ?_⟩
  all_goals repeat' split
  all_goals simp [insecureTls]
  split <;> simp

theorem flow_eq {s s' : String} {rest rest' : Fields} (h : nonEmpty "flow" s ++ rest = nonEmpty "flow" s' ++ rest')
    (hrest : ∀ j, ("flow", j) ∉ rest') (hs : s ≠ "") : s' = s := by
  have hmem : ("flow", Json.str s) ∈ nonEmpty "flow" s' ++ rest' := by
    rw [← h]
    simp [nonEmpty, hs]
  by_cases hs' : s' = "" <;> simp [nonEmpty, hs', hrest] at hmem
  exact hmem.symm

/-- Two exports with one document, the first of them VLESS. -/
structure Alike (v v' : ClientConfigValues) : Prop where
  protocol : v'.endpoint.protocol = .vless
  anyTls : v'.endpoint.hasComponent .anyTls = v.endpoint.hasComponent .anyTls
  password : v.endpoint.hasComponent .anyTls = true → v'.anytlsPassword = v.anytlsPassword
  flow : v.endpoint.hasComponent .anyTls = false → v.flow ≠ "" → v'.flow = v.flow

variable (hp : v.endpoint.protocol = .vless)
  (hp' : v'.endpoint.protocol ∈ exported)
include hp hp'

theorem mihomo_alike (h : mihomoFormat host name v = mihomoFormat host' name' v') : Alike v v' := by
  have hflow := flow_not_mem (v := v')
  simp only [mihomoFormat, hp] at h
  simp only [exported, mem_cons, not_mem_nil, or_false] at hp'
  rcases hp' with hp' | hp' | hp' | hp' | hp' | hp' | hp' <;> simp only [hp'] at h
  all_goals cases ha : v.endpoint.hasComponent .anyTls <;> cases ha' : v'.endpoint.hasComponent .anyTls
  all_goals simp [ha, ha', mihomoHead] at h
  · exact ⟨hp', by rw [ha, ha'], by simp [ha], fun _ => flow_eq h.2.2.2.2 (by simp [hflow])⟩
  · exact ⟨hp', by rw [ha, ha'], fun _ => h.2.2.2.1.symm, by simp [ha]⟩

theorem singbox_alike (h : singboxFormat host name v = singboxFormat host' name' v') : Alike v v' ∧
    (v.endpoint.hasComponent .anyTls = false → v.endpoint.hasComponent .shadowTls = true →
      v'.endpoint.hasComponent .shadowTls = true ∧ v'.shadowtlsPassword = v.shadowtlsPassword) := by
  have hflow := flow_not_mem (v := v')
  simp only [singboxFormat, singboxOutbounds, hp] at h
  simp only [exported, mem_cons, not_mem_nil, or_false] at hp'
  rcases hp' with hp' | hp' | hp' | hp' | hp' | hp' | hp' <;> simp only [hp'] at h
  all_goals cases ha : v.endpoint.hasComponent .anyTls <;> cases ha' : v'.endpoint.hasComponent .anyTls
  all_goals cases hs : v.endpoint.hasComponent .shadowTls <;> cases hs' : v'.endpoint.hasComponent .shadowTls
  all_goals simp [ha, ha', hs, hs', singboxHead, direct] at h
  · exact ⟨⟨hp', by rw [ha, ha'], by simp [ha], fun _ => flow_eq h.2.2.2.2 (by simp [hflow])⟩, by simp⟩
  · exact ⟨⟨hp', by rw [ha, ha'], by simp [ha], fun _ => flow_eq h.1.2.2.2.2 (by simp [hflow])⟩,
      fun _ _ => ⟨rfl, h.2.2.2.2.1.symm⟩⟩
  all_goals exact ⟨⟨hp', by rw [ha, ha'], fun _ => h.2.2.2.1.symm, by simp [ha]⟩, by simp⟩

end

/-! ## Result -/

/-- The same export, with the profile written out. -/
def pinned (e : Export) (cfg : Config) : Export :=
  { e with transport := some (detectProfile (some cfg) e.transport) }

section
variable {e : Export} {cfg : Config} {doc : Json}

theorem represented_of_kept (hformat : e.format = .mihomo ∨ e.format = .singBox) (hdoc : e.generate cfg = .ok doc)
    (hkept : Kept e cfg) {x : Component} (hx : x ∈ clientSide) (hactive : Active e cfg x) :
    Represented e cfg doc x := by
  intro e' cfg' hsame hdoc'
  obtain ⟨hvalid, rfl⟩ := generateClientConfig_ok hdoc
  obtain ⟨hvalid', heq⟩ := generateClientConfig_ok hdoc'
  obtain ⟨hvision, hany, hshadow, -⟩ := values_components e cfg
  obtain ⟨hvision', -, -⟩ := values_components e' cfg'
  rw [hsame] at heq hvalid'
  have hp' := exported_of_ok hvalid' (by rcases hformat with hf | hf <;> simp [hf])
  have halike (hp : (e.values cfg).endpoint.protocol = .vless) : Alike (e.values cfg) (e'.values cfg') := by
    rcases hformat with hf | hf <;> rw [hf] at heq
    · exact mihomo_alike hp hp'.1 heq.symm
    · exact (singbox_alike hp hp'.1 heq.symm).1
  simp only [clientSide, mem_cons, not_mem_nil, or_false] at hx
  rcases hx with rfl | rfl | rfl | rfl | rfl
  · obtain ⟨hp, -, hv⟩ := hvision.mp hactive
    have hflow := (halike hp).flow (Bool.eq_false_iff.mpr (hkept.vision hactive)) (by simp [hv])
    exact ⟨hvision'.mpr ⟨(halike hp).protocol, hp'.2 (halike hp).protocol, hflow.trans hv⟩, hflow⟩
  · have hsome := halike (hany hactive).1
    exact ⟨hsome.anyTls.trans hactive, hsome.password hactive⟩
  · rw [hkept.shadowTls hactive] at heq
    have hno := Bool.eq_false_iff.mpr fun ha => (hany ha).2.1 hactive
    exact (singbox_alike (hshadow hactive).1 hp'.1 heq.symm).2 hno hactive
  · exact absurd hactive hkept.salamander
  · exact absurd hactive hkept.gecko

/-- The obfuscation password is not in the document. -/
theorem not_represented_obfs {x : Component} (hx : x = .hysteriaSalamander ∨ x = .hysteriaGecko)
    (hactive : Active e cfg x) (hdoc : e.generate cfg = .ok doc) : ¬ Represented e cfg doc x := by
  obtain ⟨hprofile, h2, o, hh, ho⟩ := (values_components e cfg).2.2.2
    (by rcases hx with rfl | rfl <;> simp [hactive])
  intro h
  have hother (p : String) : p = parameter e cfg x := by
    have hvalues : (pinned e cfg).values
        { cfg with hysteria2 := some { h2 with obfs := some { o with password := p } } } = e.values cfg := by
      simp only [Export.values, pinned, resolveClientValues, hprofile, hh]
      simp [detectProfile, buildEndpointModel, EndpointModel.refine,
        hasConfiguredFallbackDestination, hh, ho, Config.carrierTls, resolveOuterSecurity]
    have hparameter := (h (pinned e cfg)
      { cfg with hysteria2 := some { h2 with obfs := some { o with password := p } } }
      rfl (by rw [Export.generate, hvalues]; exact hdoc)).2
    rw [← hparameter]
    rcases hx with rfl | rfl <;> rfl
  exact absurd ((hother "a").trans (hother "b").symm) (by decide)

/-- mihomo prints no ShadowTLS password. -/
theorem not_represented_shadowTls (hactive : Active e cfg .shadowTls) (hformat : e.format = .mihomo)
    (hdoc : e.generate cfg = .ok doc) : ¬ Represented e cfg doc .shadowTls := by
  obtain ⟨-, hprofile⟩ := (values_components e cfg).2.2.1 hactive
  intro h
  have hother (p : String) : p = parameter e cfg .shadowTls := by
    have hvalues : (pinned e cfg).values
        { cfg with shadowtls := some { (cfg.shadowtls.getD ⟨"", none⟩) with password := p } } =
          { e.values cfg with shadowtlsPassword := p } := by
      simp only [Export.values, pinned, resolveClientValues, hprofile]
      cases hs : cfg.shadowtls <;> simp [detectProfile, buildEndpointModel, EndpointModel.refine,
        hasConfiguredFallbackDestination, hs, resolveOuterSecurity]
    have hparameter := (h (pinned e cfg) _ rfl (by
      rw [Export.generate, hvalues]
      show generateClientConfig e.host e.name _ e.format = _
      rw [hformat, ← hdoc, Export.generate, hformat]
      rfl)).2
    rw [← hparameter]
    rfl
  exact absurd ((hother "a").trans (hother "b").symm) (by decide)

/-- Neither format prints the flow behind AnyTLS. -/
theorem not_represented_vision (hactive : Active e cfg .anyTls)
    (hformat : e.format = .mihomo ∨ e.format = .singBox) (hdoc : e.generate cfg = .ok doc) :
    ¬ Represented e cfg doc .vision := by
  obtain ⟨hp, -, hprofile⟩ := (values_components e cfg).2.1 hactive
  obtain ⟨-, rfl⟩ := generateClientConfig_ok hdoc
  -- the same server without Vision
  let cfg' : Config := { cfg with users := [], flow := none }
  have hmodel : ((pinned e cfg).values cfg').endpoint =
      buildEndpointModel (some cfg) (.of .anytls) "" := by
    simp only [Export.values, pinned, resolveClientValues, hprofile]
    rfl
  obtain ⟨hp', ha', hvalid'⟩ : ((pinned e cfg).values cfg').endpoint.protocol = .vless ∧
      ((pinned e cfg).values cfg').endpoint.hasComponent .anyTls = true ∧
      validateClientFormatSupport e.format ((pinned e cfg).values cfg').endpoint = .ok () := by
    rw [hmodel]
    simp only [buildEndpointModel, Option.elim, EndpointModel.refine]
    generalize hasConfiguredFallbackDestination (some cfg) (.of .anytls) = fallback
    rcases hformat with hf | hf <;> rw [hf] <;> cases fallback <;> exact ⟨rfl, rfl, rfl⟩
  have hdoc' : (pinned e cfg).generate cfg' = .ok (render e.host e.name (e.values cfg) e.format) := by
    show generateClientConfig e.host e.name _ e.format = _
    rw [generateClientConfig, hvalid']
    have hactive : (e.values cfg).endpoint.hasComponent .anyTls = true := hactive
    rcases hformat with hf | hf <;> rw [hf]
    · simp only [render, mihomoFormat, hp, hp', hactive, ha', if_true]
      rfl
    · simp only [render, singboxFormat, singboxOutbounds, hp, hp', hactive, ha', if_true]
      rfl
  intro h
  have hflow := ((values_components (pinned e cfg) cfg').1.mp (h (pinned e cfg) cfg' rfl hdoc').1).2.2
  exact absurd (show "" = "xtls-rprx-vision" from hflow) (by decide)

end

/-- **What an export keeps.** A document for mihomo or sing-box represents every active
component if and only if none of them is left out. -/
theorem represented_iff_kept (e : Export) (cfg : Config) (doc : Json)
    (hformat : e.format = .mihomo ∨ e.format = .singBox) (hdoc : e.generate cfg = .ok doc) :
    (∀ x ∈ clientSide, Active e cfg x → Represented e cfg doc x) ↔ Kept e cfg := by
  constructor
  · intro h
    refine ⟨fun ha => ?_, fun ha => ?_, fun ha => ?_, fun hv ha => ?_⟩
    · exact not_represented_obfs (.inl rfl) ha hdoc (h _ (by decide) ha)
    · exact not_represented_obfs (.inr rfl) ha hdoc (h _ (by decide) ha)
    · exact hformat.resolve_left fun hf => not_represented_shadowTls ha hf hdoc (h _ (by decide) ha)
    · exact not_represented_vision ha hformat hdoc (h _ (by decide) hv)
  · exact fun hkept x hx hactive => represented_of_kept hformat hdoc hkept hx hactive

/-- A VLESS server with Vision. -/
def visionServer : Config where
  listen := "0.0.0.0:443"
  users := [{ id := "user", flow := "xtls-rprx-vision" }]

/-- Its document has the flow. -/
theorem represented_iff_kept_vision : ∃ doc, someExport.generate visionServer = .ok doc ∧
    Active someExport visionServer .vision ∧ Represented someExport visionServer doc .vision :=
  ⟨_, rfl, rfl, (represented_iff_kept someExport visionServer _ (.inr rfl) rfl).mpr
    ⟨Bool.noConfusion, Bool.noConfusion, fun _ => rfl, fun _ => Bool.noConfusion⟩ .vision (by decide) rfl⟩

/-- A Hysteria2 server with Gecko obfuscation. -/
def obfuscated (password : String) : Config where
  listen := "0.0.0.0:443"
  hysteria2 := some { password := some "user", obfs := some { obfsType := "gecko", password } }

/-- **Counterexample.** Two servers with different obfuscation passwords, and one document. -/
theorem obfs_password_dropped :
    (∀ p, (obfuscated "first").validate p = .ok () ∧ (obfuscated "second").validate p = .ok ()) ∧
    Active someExport (obfuscated "first") .hysteriaGecko ∧
    ∃ doc, someExport.generate (obfuscated "first") = .ok doc ∧
      ¬ Represented someExport (obfuscated "first") doc .hysteriaGecko := by
  refine ⟨fun p => ⟨rfl, rfl⟩, rfl, _, rfl, fun h => ?_⟩
  have hsame := (h someExport (obfuscated "second") rfl rfl).2
  revert hsame
  decide

end Wrongsv.Bugs.ClientConfigDrops
