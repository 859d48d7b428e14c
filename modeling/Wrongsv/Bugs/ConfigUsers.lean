import Wrongsv.L2Machine.Server.Inbound

/-!
# User lists with one id twice

`Config::validate` never compares the ids of two users (server/config.rs:1215-1229), and
`MemoryValidator::add` replaces the entry under the processed UUID (handler/mod.rs:510-534).
So of two entries with ids that are equal but for the third group the last one is found
for both, with its e-mail and UDP permission. The ids of the VMess users are compared as
texts (config.rs:1379-1386): letter case and dashes make them different. The top-level
`flow` is not checked at all.

Spec clause: in a server that starts, each configured id leads to its own entry, the
VMess users have different UUIDs, and every account's flow is empty or
`xtls-rprx-vision`.

Fix: compare the parsed UUIDs, processed for VLESS, and check `self.flow`.
-/
namespace Wrongsv.Bugs.ConfigUsers
open L1.UuidText L1.VisionFrame L1.VlessHeader L2.Vless L2.Server List

/-- What an accepted user list promises. -/
structure Unambiguous (p : ServerPrimitives) (server : InboundServer) : Prop where
  users : server.config.users.Pairwise fun u v => ∀ a b, parseString p.sha256 u.id = .ok a →
    parseString p.sha256 v.id = .ok b → processUuid a ≠ processUuid b
  /-- Each configured id leads to its own entry. -/
  resolved : ∀ u ∈ server.config.users, ∀ a, parseString p.sha256 u.id = .ok a →
    ∃ m, server.validator.get a = some m ∧ m.account.id = a ∧ m.email = u.email ∧ m.account.udp = u.udp
  vmess : ∀ vmess, server.config.vmess = some vmess → vmess.users.Pairwise fun u v => ∀ a b,
    parseString p.sha256 u.id = .ok a → parseString p.sha256 v.id = .ok b → a ≠ b
  flows : ∀ id m, server.validator.get id = some m → m.account.flow = "" ∨ m.account.flow = "xtls-rprx-vision"

/-- Both texts are read as groups of digits; a shorter one is a name. -/
def Grouped (s t : String) : Prop := 32 ≤ (utf8 s).length ∧ 32 ≤ (utf8 t).length

/-- Two texts for one VLESS user: the digits agree outside the third group, or the ids
they give do where a name is among them. -/
def SameUser (sha256 : Sha256) (s t : String) : Prop :=
  (Grouped s t ∧ (digits s).take 12 = (digits t).take 12 ∧ (digits s).drop 16 = (digits t).drop 16) ∨
    (¬ Grouped s t ∧ ∃ a b, parseString sha256 s = .ok a ∧ parseString sha256 t = .ok b ∧
      processUuid a = processUuid b)

/-- Two texts for one UUID. -/
def SameUuid (sha256 : Sha256) (s t : String) : Prop :=
  (Grouped s t ∧ digits s = digits t) ∨ (¬ Grouped s t ∧ parseString sha256 s = parseString sha256 t)

/-- No id comes twice, and the top-level flow is checked where it is used. -/
structure Separate (p : ServerPrimitives) (config : Config) : Prop where
  users : config.users.Pairwise fun u v => ¬ SameUser p.sha256 u.id v.id
  vmess : ∀ vmess, config.vmess = some vmess → vmess.users.Pairwise fun u v => ¬ SameUuid p.sha256 u.id v.id
  flow : (∃ u ∈ config.users, u.flow = "") → config.flow.getD "" = "" ∨ config.flow.getD "" = "xtls-rprx-vision"

/-! ## Texts -/

theorem processUuid_bytes (a : Uuid) :
    (processUuid a).bytes = a.bytes.take 6 ++ 0 :: 0 :: a.bytes.drop 8 := by
  have hlen := a.length_eq
  have h6 : a.bytes.set 6 0 = a.bytes.take 6 ++ 0 :: a.bytes.drop 7 := by
    rw [set_eq_take_append_cons_drop, if_pos (by omega)]
  have htake : (a.bytes.take 6).length = 6 := by
    rw [length_take]
    omega
  show (a.bytes.set 6 0).set 7 0 = _
  rw [h6, set_append_right _ _ (by omega), htake, drop_eq_getElem_cons (by omega)]
  rfl

theorem processUuid_eq_iff {a b : Uuid} : processUuid a = processUuid b ↔
    a.bytes.take 6 = b.bytes.take 6 ∧ a.bytes.drop 8 = b.bytes.drop 8 := by
  have hlen : (a.bytes.take 6).length = (b.bytes.take 6).length := by
    rw [length_take, length_take, a.length_eq, b.length_eq]
  have hbytes : processUuid a = processUuid b ↔ (processUuid a).bytes = (processUuid b).bytes := by
    rw [← Uuid.mk.injEq]
  grind [processUuid_bytes, append_inj, List.cons.injEq]

section
variable {sha256 : Sha256} {s t : String} {a b : Uuid} (hs : parseString sha256 s = .ok a)
  (ht : parseString sha256 t = .ok b)
include hs ht

theorem sameUser_iff : SameUser sha256 s t ↔ processUuid a = processUuid b := by
  by_cases hg : Grouped s t
  · have htake := (parseString_parts_iff hs ht hg.1 hg.2 6).1
    have hdrop := (parseString_parts_iff hs ht hg.1 hg.2 8).2
    rw [processUuid_eq_iff, htake, hdrop]
    simp [SameUser, hg]
  · simp [SameUser, hg, hs, ht]

theorem sameUuid_iff : SameUuid sha256 s t ↔ a = b := by
  grind [Grouped, parseString_eq_iff, SameUuid]

end

/-! ## Registered users -/

section
variable {p : ServerPrimitives} {config : Config}

theorem addUsers_get_other {users : List UserConfig} {w w' : MemoryValidator}
    (h : addUsers p config w users = .ok w') {id : Uuid}
    (hother : ∀ v ∈ users, ∀ b, parseString p.sha256 v.id = .ok b → processUuid id ≠ processUuid b) :
    w'.get id = w.get id := by
  have hnone : (users.filterMap (entryUser p config)).filter
      (fun u => processUuid id = processUuid u.account.id) = [] := by
    rw [filter_eq_nil_iff]
    intro m hm
    obtain ⟨v, hv, hentry⟩ := List.mem_filterMap.mp hm
    unfold entryUser at hentry
    split at hentry
    · rename_i b hb
      cases hentry
      exact fun heq => hother v hv b hb (of_decide_eq_true heq)
    · cases hentry
  rw [addUsers_get h, hnone]
  rfl

theorem addUsers_get_own : ∀ {users : List UserConfig} {w w' : MemoryValidator},
    addUsers p config w users = .ok w' →
    users.Pairwise (fun u v => ∀ a b, parseString p.sha256 u.id = .ok a → parseString p.sha256
      v.id = .ok b → processUuid a ≠ processUuid b) →
    ∀ u ∈ users, ∀ a, parseString p.sha256 u.id = .ok a → w'.get a = some (memoryUser config u a)
  | [], _, _, _, _, _, hu, _, _ => by cases hu
  | user :: users, w, w', h, hpair, u, hu, a, ha => by
    obtain ⟨hfirst, hrest⟩ := List.pairwise_cons.mp hpair
    obtain ⟨uuid, w₁, huuid, hadd, htail⟩ := addUsers_cons h
    rcases List.mem_cons.mp hu with rfl | hu
    · rw [addUsers_get_other htail fun v hv b hb => hfirst v hv a b ha hb, add_get hadd]
      rw [huuid, Except.ok.injEq] at ha
      subst ha
      exact if_pos rfl
    · exact addUsers_get_own htail hrest u hu a ha

theorem addUsers_mem {users : List UserConfig} {w : MemoryValidator} (h : addUsers p config .new users = .ok w)
    {id : Uuid} {m : MemoryUser} (hget : w.get id = some m) :
    ∃ u ∈ users, ∃ a, parseString p.sha256 u.id = .ok a ∧ m = memoryUser config u a := by
  rw [addUsers_get h] at hget
  have hlast : ((users.filterMap (entryUser p config)).filter
      fun u => processUuid id = processUuid u.account.id).getLast? = some m := by
    simpa [MemoryValidator.get, MemoryValidator.new] using hget
  grind [entryUser]

end

/-! ## The user lists -/

section
variable {p : ServerPrimitives} {server : InboundServer} (hvalid : server.config.Valid p.toConfigPrimitives)
  (hadd : addUsers p server.config .new server.config.users = .ok server.validator)
include hvalid hadd

theorem separate_of_unambiguous (h : Unambiguous p server) : Separate p server.config := by
  have hparse := addUsers_parse hadd
  refine ⟨?_, ?_, ?_⟩
  · refine h.users.imp_of_mem ?_
    grind [sameUser_iff]
  · intro vmess hvmess
    have hcheck := hvalid.vmess vmess hvmess
    simp only [Config.validateVmess, Validate.bind_ok, Validate.each_ok, Validate.okOr_ok] at hcheck
    refine (h.vmess vmess hvmess).imp_of_mem ?_
    grind [sameUuid_iff]
  · rintro ⟨u, hu, hflow⟩
    obtain ⟨a, ha⟩ := hparse u hu
    have hget := addUsers_get_own hadd h.users u hu a ha
    have := h.flows a _ hget
    simpa [memoryUser, effectiveFlow, hflow] using this

theorem unambiguous_of_separate (h : Separate p server.config) : Unambiguous p server := by
  have hpair : server.config.users.Pairwise fun u v => ∀ a b, parseString p.sha256 u.id = .ok a →
      parseString p.sha256 v.id = .ok b → processUuid a ≠ processUuid b := by
    refine h.users.imp ?_
    intro u v hdiffer a b ha hb heq
    exact hdiffer ((sameUser_iff ha hb).mpr heq)
  refine ⟨hpair, ?_, ?_, ?_⟩
  · intro u hu a ha
    exact ⟨_, addUsers_get_own hadd hpair u hu a ha, rfl, rfl, rfl⟩
  · intro vmess hvmess
    refine (h.vmess vmess hvmess).imp ?_
    grind [sameUuid_iff]
  · intro id m hget
    obtain ⟨u, hu, a, -, rfl⟩ := addUsers_mem hadd hget
    by_cases hflow : u.flow = ""
    · simpa [memoryUser, effectiveFlow, hflow] using h.flow ⟨u, hu, hflow⟩
    · -- a flow of the user's own is checked
      have hcheck := hvalid.users u hu
      simp only [Config.validateUser, Validate.bind_ok, Validate.rejectIf_ok] at hcheck
      grind [memoryUser, effectiveFlow]

end

/-- **Exactly the lists without an id twice.** For every configuration the server starts
with, the user lists are unambiguous if and only if no two users' ids agree in their
digits outside the third group, no two VMess ids in all digits, names and their hashes
likewise, and the top-level flow is empty or `xtls-rprx-vision` where a user needs it. -/
theorem unambiguous_iff (p : ServerPrimitives) (config : Config) (server : InboundServer)
    (h : InboundServer.new p config = .ok server) : Unambiguous p server ↔ Separate p config := by
  obtain ⟨hvalid, hadd, rfl⟩ := InboundServer.new_ok h
  exact ⟨separate_of_unambiguous hvalid hadd, unambiguous_of_separate hvalid hadd⟩

/-! ## Counterexample -/

/-- Parsers that accept every section. -/
def somePrimitives : ServerPrimitives where
  sha256 _ := constBytes 32 0
  base64Decode _ := none
  parseIpAddr _ := none
  isSocketAddr _ := false
  toLowercase := id
  deriveCmdKey id := id.bytes
  parseSection _ _ := .ok ()

def someId : Uuid :=
  ⟨[0x12, 0x34, 0x56, 0x78, 0x12, 0x34, 0x12, 0x34, 0x12, 0x34, 0x12, 0x34, 0x56, 0x78, 0x9A, 0xBC], rfl⟩

def twoEntries : Config :=
  { listen := "0.0.0.0:443", flow := some "xtls-rprx-direct"
    users := [
      { id := "12345678-1234-1234-1234-123456789abc", email := "first@test" },
      { id := "12345678-1234-5678-1234-123456789ABC", email := "second@test", udp := false }] }

def twoSpellings : Config :=
  { listen := "0.0.0.0:443"
    vmess := some { users := [
      { id := "12345678-1234-1234-1234-123456789abc", email := "first@test" },
      { id := "12345678123412341234123456789ABC", email := "second@test" }] } }

/-- Two users whose ids differ in the last digit. -/
def twoUsers : Config :=
  { listen := "0.0.0.0:443", flow := some "xtls-rprx-vision"
    users := [
      { id := "12345678-1234-1234-1234-123456789abc", email := "first@test" },
      { id := "12345678-1234-1234-1234-123456789abd", email := "second@test", udp := false }] }

/-- Two VMess users whose ids differ in the third group. -/
def twoVmessUsers : Config :=
  { listen := "0.0.0.0:443"
    vmess := some { users := [
      { id := "12345678-1234-1234-1234-123456789abc", email := "first@test" },
      { id := "12345678-1234-5678-1234-123456789abc", email := "second@test" }] } }

theorem twoUsers_separate : Separate somePrimitives twoUsers := by
  refine ⟨List.pairwise_pair.mpr ?_, fun _ h => (nomatch h), fun _ => .inr rfl⟩
  rintro (⟨-, -, hlast⟩ | ⟨hnames, -⟩)
  · exact absurd hlast (by decide)
  · exact hnames (by constructor <;> decide)

theorem twoVmessUsers_separate : Separate somePrimitives twoVmessUsers := by
  refine ⟨.nil, fun vmess hvmess => ?_, fun _ => .inl rfl⟩
  cases hvmess
  refine List.pairwise_pair.mpr ?_
  rintro (⟨-, hsame⟩ | ⟨hnames, -⟩)
  · exact absurd hsame (by decide)
  · exact hnames (by constructor <;> decide)

theorem exists_server {config : Config} (h : (InboundServer.new somePrimitives config).toOption.isSome = true) :
    ∃ server, InboundServer.new somePrimitives config = .ok server := by
  cases hnew : InboundServer.new somePrimitives config with
  | error e =>
    rw [hnew] at h
    cases h
  | ok server => exact ⟨server, rfl⟩

theorem unambiguous_iff_two_ids :
    (∃ server, InboundServer.new somePrimitives twoUsers = .ok server ∧ Unambiguous somePrimitives server) ∧
      ∃ server, InboundServer.new somePrimitives twoVmessUsers = .ok server ∧
        Unambiguous somePrimitives server := by
  have husers : (InboundServer.new somePrimitives twoUsers).toOption.isSome = true := by decide +kernel
  have hvmess : (InboundServer.new somePrimitives twoVmessUsers).toOption.isSome = true := by decide +kernel
  obtain ⟨server, hserver⟩ := exists_server husers
  obtain ⟨server', hserver'⟩ := exists_server hvmess
  exact ⟨⟨server, hserver, (unambiguous_iff _ _ server hserver).mpr twoUsers_separate⟩,
    server', hserver', (unambiguous_iff _ _ server' hserver').mpr twoVmessUsers_separate⟩

/-- **The first user's id leads to the second user**, who may not use UDP and has an
unknown flow; and two VMess users with one UUID are accepted. -/
theorem two_entries : (InboundServer.new somePrimitives twoEntries).toOption.map (fun s => s.validator.get someId) =
        some (some ⟨⟨⟨(someId.bytes.set 6 0x56).set 7 0x78, rfl⟩, "xtls-rprx-direct", false, []⟩, "second@test"⟩) ∧
      (∀ server, InboundServer.new somePrimitives twoEntries = .ok server → ¬ Unambiguous somePrimitives server) ∧
      (InboundServer.new somePrimitives twoSpellings).toOption.isSome = true ∧
      parseString somePrimitives.sha256 "12345678-1234-1234-1234-123456789abc" = .ok someId ∧
      parseString somePrimitives.sha256 "12345678123412341234123456789ABC" = .ok someId := by
  have hget : (InboundServer.new somePrimitives twoEntries).toOption.map (fun s => s.validator.get someId) =
      some (some ⟨⟨⟨(someId.bytes.set 6 0x56).set 7 0x78, rfl⟩, "xtls-rprx-direct", false, []⟩, "second@test"⟩) := by
    decide +kernel
  refine ⟨hget, ?_, by decide +kernel, by decide +kernel, by decide +kernel⟩
  intro server hserver hun
  rw [hserver] at hget
  simp only [Except.toOption, Option.map_some, Option.some.injEq] at hget
  rcases hun.flows _ _ hget with hflow | hflow
  · exact absurd hflow (by decide)
  · exact absurd hflow (by decide)

end Wrongsv.Bugs.ConfigUsers
