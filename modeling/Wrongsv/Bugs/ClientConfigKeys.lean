import Wrongsv.L2Machine.Server.ClientConfig

/-!
# Client configurations: a WireGuard export gives the server's private key away

`resolve_client_values` takes `wireguard.private_key`, the key of the server, for the
private key of the client, and the first peer's `public_key`, the client's own, for the
key of the peer (src/client_config/profile.rs:145-155). The documents for mihomo,
sing-box and Hiddify print the two (src/client_config/mod.rs:401-417, 832-858, 1429-1452).

What should hold is `NoSecret`, as in `wireguard_proxy_spec`
(src/import_config.rs:1527-1565).

Fix: the public key of `wireguard.private_key` for the peer, and an empty private key.
-/
namespace Wrongsv.Bugs.ClientConfigKeys
open L2.Server

/-- What an export is made with, beside the configuration. -/
structure Export where
  keys : KeyPrimitives
  build : BuildConstants := {}
  transport : Option EndpointProfile := none
  servername : String := "YOUR_SNI"
  host : String
  name : String
  format : ClientFormat

def Export.values (e : Export) (cfg : Config) : ClientConfigValues :=
  resolveClientValues e.keys e.build (some cfg) e.transport e.servername

def Export.generate (e : Export) (cfg : Config) : Except String Json :=
  generateClientConfig e.host e.name (e.values cfg) e.format

def privateKeys (cfg : Config) : List String :=
  (cfg.reality.map (·.privateKey)).toList ++ (cfg.wireguard.map (·.privateKey)).toList

/-- The configuration with other private keys. -/
def withKeys (cfg : Config) (r w : String) : Config :=
  { cfg with
    reality := cfg.reality.map ({ · with privateKey := r })
    wireguard := cfg.wireguard.map ({ · with privateKey := w }) }

structure NoSecret (e : Export) (cfg : Config) (doc : Json) : Prop where
  /-- other keys with the same public keys give the same document -/
  through : ∀ r w, (∀ rc ∈ cfg.reality, e.keys.realityPublic r = e.keys.realityPublic rc.privateKey) →
    (∀ wg ∈ cfg.wireguard, e.keys.wireguardPublic w = e.keys.wireguardPublic wg.privateKey) →
    e.generate (withKeys cfg r w) = .ok doc
  no_field : ∀ key ∈ privateKeys cfg, ¬ Json.Part (.str key) doc
  client_key : ∀ wg ∈ cfg.wireguard, ∀ own peer, doc.HasKeys own peer → own ≠ wg.privateKey
  peer_key : ∀ wg ∈ cfg.wireguard, ∀ own peer, doc.HasKeys own peer →
    e.keys.wireguardPublic wg.privateKey = some peer

def ExportsWireguard (e : Export) (cfg : Config) : Prop :=
  detectProfile (some cfg) e.transport = .of .wireguard ∧ cfg.wireguard.isSome

instance ExportsWireguard.decidable (e : Export) (cfg : Config) : Decidable (ExportsWireguard e cfg) :=
  inferInstanceAs (Decidable (_ ∧ _))

/-- The texts of the server's side that a client is meant to see, as they are printed. -/
def clientTexts (e : Export) (cfg : Config) : List (Option String) :=
  [e.host, e.name, e.name ++ "-shadowtls", e.servername, e.build.uuid, e.build.shortId, e.build.x25519Pk,
    cfg.flow, cfg.users.head?.map (·.flow), cfg.users.head?.map (·.id), (cfg.vmess.bind (·.users.head?)).map (·.id),
    cfg.reality.bind (·.shortIds.head?), cfg.reality.bind fun rc => e.keys.realityPublic rc.privateKey,
    (cfg.reality.bind (·.dest)).map firstPart, (cfg.websocket.map (·.path)).map normalizePath,
    (cfg.httpupgrade.map (·.path)).map normalizePath, cfg.grpc.bind (·.serviceName), cfg.kcp.bind (·.seed),
    (cfg.xhttp.bind (·.path)).map normalizePath, cfg.xhttp.bind (·.host), cfg.shadowtls.map (·.password),
    cfg.anytls.map (·.password), cfg.shadowsocks.map (·.method), cfg.shadowsocks.map (·.password),
    cfg.trojan.bind (·.password), cfg.trojan.bind (·.users.head?.map (·.password)), cfg.hysteria2.bind (·.password),
    cfg.hysteria2.bind (·.users.head?.map fun u => u.name ++ ":" ++ u.password),
    (cfg.tuic.bind (·.users.head?)).map (·.uuid), (cfg.tuic.bind (·.users.head?)).map (·.password),
    cfg.tuic.map (·.congestionControl)]

/-- A private key has the length of one, and nothing else that is configured is equal to it. -/
def Fresh (e : Export) (cfg : Config) : Prop :=
  ∀ key ∈ privateKeys cfg, 32 ≤ key.length ∧ some key ∉ clientTexts e cfg

instance Fresh.decidable (e : Export) (cfg : Config) : Decidable (Fresh e cfg) :=
  inferInstanceAs (Decidable (∀ key ∈ privateKeys cfg, _))

section
variable {e : Export} {cfg : Config} {doc : Json}

theorem values_protocol : (e.values cfg).endpoint.protocol = .wireGuard ↔
    detectProfile (some cfg) e.transport = .of .wireguard := buildEndpointModel_protocol

theorem has_withKeys (r w : String) : (withKeys cfg r w).has = cfg.has := by
  funext s
  cases s
  case reality => exact Option.isSome_map
  case wireguard => exact Option.isSome_map
  all_goals rfl

theorem buildEndpointModel_withKeys (r w : String) (profile : EndpointProfile) (flow : String) :
    buildEndpointModel (some (withKeys cfg r w)) profile flow = buildEndpointModel (some cfg) profile flow := by
  rcases profile with _ | s
  · rfl
  · cases s
    case reality =>
      cases hr : cfg.reality <;> simp [buildEndpointModel, hasConfiguredFallbackDestination, withKeys, hr] <;> rfl
    case wireguard =>
      cases hw : cfg.wireguard <;> simp [buildEndpointModel, EndpointModel.refine, withKeys, hw] <;> rfl
    all_goals rfl

/-- Of the keys, the values have the REALITY public one and the WireGuard private one. -/
theorem values_withKeys {r : String}
    (h : ∀ rc ∈ cfg.reality, e.keys.realityPublic r = e.keys.realityPublic rc.privateKey) (w : String) :
    e.values (withKeys cfg r w) =
      { e.values cfg with wireguardPrivateKey := (cfg.wireguard.map fun _ => w).getD "" } := by
  have hdetect : detectProfile (some (withKeys cfg r w)) e.transport = detectProfile (some cfg) e.transport := by
    simp only [detectProfile, has_withKeys]
  simp only [Export.values, resolveClientValues, hdetect, buildEndpointModel_withKeys]
  cases hr : cfg.reality <;> cases hw : cfg.wireguard <;> simp_all [withKeys]

/-- Outside a WireGuard export, the private key is not printed. -/
theorem render_of_not_wireguard (h : ¬ ExportsWireguard e cfg) (w : String) :
    render e.host e.name { e.values cfg with wireguardPrivateKey := (cfg.wireguard.map fun _ => w).getD "" } e.format =
      render e.host e.name (e.values cfg) e.format := by
  cases hw : cfg.wireguard with
  | none =>
    have hkey : (e.values cfg).wireguardPrivateKey = "" := by simp [Export.values, resolveClientValues, hw]
    rw [Option.map_none, Option.getD_none, ← hkey]
  | some wg => exact render_key (fun hp => h ⟨values_protocol.mp hp, by rw [hw]; rfl⟩) _ e.format

/-- Only a document for WireGuard has a field for a private key. -/
theorem not_hasKeys (h : (e.values cfg).endpoint.protocol ≠ .wireGuard) (own peer : String) :
    ¬ (render e.host e.name (e.values cfg) e.format).HasKeys own peer := by
  have hall : (render e.host e.name (e.values cfg) e.format).All
      (fun n => n ≠ "private-key" ∧ n ≠ "private_key") (fun _ => True) :=
    render_all ⟨fun _ h h' => ⟨h, h'⟩, fun _ _ => trivial, fun hp => absurd hp h, by simp⟩ e.format
  rintro ⟨fields, hpart, ⟨hown, -⟩ | ⟨hown, -⟩⟩
  · exact (hall.names fields hpart _ hown).1 rfl
  · exact (hall.names fields hpart _ hown).2 rfl

theorem getD_ne {o : Option String} {key d : String} (ho : some key ≠ o) (hd : d ≠ key) :
    o.getD d ≠ key := by
  cases o with
  | none => exact hd
  | some t => exact fun h => ho (congrArg some h.symm)

theorem or_ne {o o' : Option String} {key : String} (ho : some key ≠ o) (ho' : some key ≠ o') :
    some key ≠ o.or o' := by
  cases o with
  | none => exact ho'
  | some t => exact ho

/-- What is printed outside WireGuard is a text that the client is meant to see. -/
theorem prints_ne (hno : ¬ ExportsWireguard e cfg) {key : String} (hlen : 32 ≤ key.length)
    (hkey : some key ∉ clientTexts e cfg) : Prints e.host e.name (e.values cfg) (fun _ => True) (· ≠ key) := by
  have hshort (s : String) (hs : s.length < 32) : s ≠ key := by
    rintro rfl
    omega
  simp only [clientTexts, List.mem_cons, List.not_mem_nil, or_false, not_or] at hkey
  obtain ⟨hhost, hname, htag, hsni, huuid, hsid, hpk, hflow, huflow, hid, hvmess, hrsid, hrpk, hdest, hws, hup, hgrpc,
    hseed, hxpath, hxhost, hstls, hanytls, hmethod, hss, htrojan, htuser, hhy, hhyuser, htuic, htpass, hcc⟩ := hkey
  have hof {s : String} (h : some key ≠ some s) : s ≠ key := fun hs => h (congrArg some hs.symm)
  have hget {o : Option String} {d : String} (ho : some key ≠ o) (hd : d.length < 32) : o.getD d ≠ key :=
    getD_ne ho (hshort d hd)
  refine ⟨fun _ _ _ => trivial, hshort, fun hp => ?_, hof hhost, hof hname, hof htag, ?_, ?_, getD_ne hrsid (hof hsid),
    getD_ne hrpk (hof hpk), ?_, ?_, hget hgrpc (by decide), hget hseed (by decide), hget hxpath (by decide),
    hget hxhost (by decide), hget hstls (by decide), hget hanytls (by decide), hget hmethod (by decide),
    hget hss (by decide), hget ?_ (by decide), hget ?_ (by decide), getD_ne htuic (hof huuid), hget htpass (by decide),
    hget hcc (by decide)⟩
  · -- without a section, the values are the defaults
    have hw : cfg.wireguard = none := by
      by_contra hw
      exact hno ⟨values_protocol.mp hp, Option.isSome_iff_ne_none.mpr hw⟩
    simp (disch := decide) [Export.values, resolveClientValues, hw, hshort]
  · simp only [Export.values, resolveClientValues]
    split
    · exact getD_ne hvmess (hof huuid)
    · exact hof huuid
    · exact getD_ne hid (hof huuid)
  · refine hget (or_ne (fun h => ?_) hflow) (by decide)
    exact huflow (Option.filter_eq_some_iff.mp h.symm).1.symm
  · simp only [Export.values, resolveClientValues]
    split
    · exact getD_ne hdest (hof hsni)
    · exact hof hsni
  · refine hget ?_ (by decide)
    rw [Option.map_or]
    exact or_ne hws hup
  · cases htr : cfg.trojan with
    | none => exact nofun
    | some t => rw [htr] at htrojan htuser; exact or_ne htrojan htuser
  · cases hh : cfg.hysteria2 with
    | none => exact nofun
    | some t => rw [hh] at hhy hhyuser; exact or_ne hhy hhyuser

theorem not_exportsWireguard (h : e.generate cfg = .ok doc) (hs : NoSecret e cfg doc) :
    ¬ ExportsWireguard e cfg := by
  rintro ⟨hprofile, hsome⟩
  obtain ⟨hvalid, rfl⟩ := generateClientConfig_ok h
  obtain ⟨wg, hw⟩ := Option.isSome_iff_exists.mp hsome
  have hkey : (e.values cfg).wireguardPrivateKey = wg.privateKey := by simp [Export.values, resolveClientValues, hw]
  have hp := values_protocol.mpr hprofile
  exact hs.client_key wg hw _ _ (hasKeys_render hp (validate_wireguard hp hvalid)) hkey

theorem noSecret_of_not_wireguard (h : e.generate cfg = .ok doc) (hfresh : Fresh e cfg)
    (hno : ¬ ExportsWireguard e cfg) : NoSecret e cfg doc := by
  obtain ⟨hvalid, rfl⟩ := generateClientConfig_ok h
  have hnone : ∀ wg ∈ cfg.wireguard, ∀ own peer,
      ¬ (render e.host e.name (e.values cfg) e.format).HasKeys own peer := by
    intro wg hw
    exact not_hasKeys fun hp => hno ⟨values_protocol.mp hp, Option.isSome_iff_exists.mpr ⟨wg, hw⟩⟩
  refine ⟨fun r w hr _ => ?_, fun key hkey hpart => ?_, ?_, ?_⟩
  · rw [Export.generate, values_withKeys hr, generateClientConfig]
    simp only [hvalid, render_of_not_wireguard hno]
  · obtain ⟨hlen, htexts⟩ := hfresh key hkey
    exact (render_all (prints_ne hno hlen htexts) e.format).texts key hpart rfl
  · exact fun wg hw own peer hkeys => absurd hkeys (hnone wg hw own peer)
  · exact fun wg hw own peer hkeys => absurd hkeys (hnone wg hw own peer)

end

def someExport : Export where
  keys := ⟨fun _ => none, fun key => if key = "server-private" then some "server-public" else none⟩
  host := "vpn.example"
  name := "client"
  format := .singBox

/-- A REALITY server. -/
def realityServer : Config where
  listen := "0.0.0.0:443"
  users := [{ id := "user" }]
  reality := some { privateKey := "5f3c1e0a9b8d7c6e5f4a3b2c1d0e9f8a7b6c5d4e3f2a1b0c9d8e7f6a5b4c3d2e" }

/-- One client, which has the key pair `client-private` and `client-public`. -/
def someConfig : Config where
  listen := "0.0.0.0:51820"
  wireguard := some
    { privateKey := "server-private", serverCidrs := ["10.66.66.1/24"]
      peers := [{ publicKey := "client-public", allowedIps := ["10.66.66.2/32"] }] }

end Wrongsv.Bugs.ClientConfigKeys
