import Wrongsv.L2Machine.Server.Config
import Wrongsv.L2Machine.Vless.Validator

/-!
# The server: users and dispatch

`InboundServer::new` checks the configuration, prepares each section and registers
the users; `run_until_shutdown` and `run_with_listener` choose by a chain of
conditions what serves the connections (server/handler/mod.rs).
`detect_profile` (src/endpoint/profile.rs) is the chain by which the client
generators decide the same for themselves.

A section is prepared if and only if it is configured, so the dispatcher is written on
the configuration. What the sections are prepared into matters here for VMess only;
of the other `parse_*` functions only whether they succeed (`parseSection`).

Results, beside `addUsers_get`, `runUntilShutdown_of_only`, `detectProfile_of_only`:
* `new_ok`: a server that starts has a valid configuration and the users registered.
-/
namespace Wrongsv.L2.Server
open L1.UuidText L1.VisionFrame L1.VlessHeader L2.Vless
open Validate

/-! ## Starting -/

/-- The code of other crates, and the sections' own parsers. -/
structure ServerPrimitives extends ConfigPrimitives where
  toLowercase : String → String
  /-- `vmess::derive_cmd_key` -/
  deriveCmdKey : Uuid → Bytes
  parseSection : Section → Config → Except String Unit

/-- server/handler/vmess_handler.rs:18-28 -/
structure VmessHandlerUser where
  email : String
  cmdKey : Bytes

structure InboundServer where
  config : Config
  validator : MemoryValidator
  vmessUsers : Option (List VmessHandlerUser)

inductive NewError where
  | config (e : ConfigError)
  | parse (message : String)
  | uuid (e : ParseUuidError)
  | validator (e : ValidatorError)

section
variable (p : ServerPrimitives)

/-- server/handler/vmess_handler.rs:30-51 -/
def parseVmessHandlerConfig (vmess : VmessServerConfig) : Except String (List VmessHandlerUser) :=
  vmess.users.mapM fun u =>
    match parseString p.sha256 u.id with
    | .ok uuid => .ok ⟨u.email, p.deriveCmdKey uuid⟩
    | .error e => .error ("vmess uuid '" ++ u.id ++ "': " ++ e.toText)

def effectiveFlow (config : Config) (user : UserConfig) : String :=
  if user.flow = "" then config.flow.getD "" else user.flow

def memoryUser (config : Config) (user : UserConfig) (uuid : Uuid) : MemoryUser :=
  ⟨⟨uuid, effectiveFlow config user, user.udp, []⟩, user.email⟩

def addUsers (config : Config) (w : MemoryValidator) :
    List UserConfig → Except NewError MemoryValidator
  | [] => .ok w
  | user :: users =>
    match parseString p.sha256 user.id with
    | .error e => .error (.uuid e)
    | .ok uuid =>
      match w.add p.toLowercase (memoryUser config user uuid) with
      | .error e => .error (.validator e)
      | .ok w' => addUsers config w' users

/-- The sections with a parser, in the order they are prepared; VMess comes between
the two lists. -/
def preparedBefore : List Section :=
  [.reality, .anytls, .tls, .shadowsocks, .mixed, .trojan, .websocket, .httpupgrade, .grpc, .xhttp,
    .meek, .gdocsviewer, .wireguard, .hysteria2, .tuic, .quic, .kcp, .webtransport, .shadowtls]

def preparedAfter : List Section := [.naive, .snell]

/-- `parse_*_config(..)?` for the sections that are configured. -/
def prepare (config : Config) (sections : List Section) : Except NewError Unit :=
  each sections fun s => if config.has s then okOr (p.parseSection s config) .parse else .ok ()

def prepareVmess (config : Config) : Except NewError (Option (List VmessHandlerUser)) :=
  match config.vmess with
  | none => .ok none
  | some vmess =>
    match parseVmessHandlerConfig p vmess with
    | .ok users => .ok (some users)
    | .error message => .error (.parse message)

def InboundServer.new (config : Config) : Except NewError InboundServer := do
  okOr (config.validate p.toConfigPrimitives) .config
  prepare p config preparedBefore
  let vmessUsers ← prepareVmess p config
  prepare p config preparedAfter
  let validator ← addUsers p config .new config.users
  .ok ⟨config, validator, vmessUsers⟩

end

section
variable {p : ServerPrimitives} {config : Config}

theorem InboundServer.new_ok {server : InboundServer} (h : InboundServer.new p config = .ok server) :
    config.Valid p.toConfigPrimitives ∧ addUsers p config .new config.users = .ok server.validator ∧
      server.config = config := by
  unfold InboundServer.new at h
  simp only [bind_eq_ok, Except.ok.injEq] at h
  obtain ⟨u, hvalid, _, -, _, -, _, -, validator, hadd, rfl⟩ := h
  obtain ⟨a, ha⟩ := okOr_ok.mp hvalid
  exact ⟨Config.validate_ok ha, hadd, rfl⟩

/-! ## Registered users -/

/-- The user of an entry, if its id is one. -/
def entryUser (p : ServerPrimitives) (config : Config) (user : UserConfig) : Option MemoryUser :=
  match parseString p.sha256 user.id with
  | .ok uuid => some (memoryUser config user uuid)
  | .error _ => none

theorem addUsers_cons {w w' : MemoryValidator} {user : UserConfig} {users : List UserConfig}
    (h : addUsers p config w (user :: users) = .ok w') :
    ∃ uuid w₁, parseString p.sha256 user.id = .ok uuid ∧
      w.add p.toLowercase (memoryUser config user uuid) = .ok w₁ ∧ addUsers p config w₁ users = .ok w' := by
  unfold addUsers at h
  split at h
  · cases h
  rename_i uuid hparse
  split at h
  · cases h
  · exact ⟨uuid, _, hparse, ‹_›, h⟩

theorem addUsers_parse : ∀ {users : List UserConfig} {w w' : MemoryValidator},
    addUsers p config w users = .ok w' → ∀ user ∈ users, ∃ uuid, parseString p.sha256 user.id = .ok uuid
  | [], _, _, _, user, hmem => by cases hmem
  | user :: users, w, w', h, other, hmem => by
    obtain ⟨uuid, w₁, huuid, -, hrest⟩ := addUsers_cons h
    rcases List.mem_cons.mp hmem with rfl | hmem
    · exact ⟨uuid, huuid⟩
    · exact addUsers_parse hrest other hmem

theorem add_get {w w' : MemoryValidator} {toLowercase : String → String} {user : MemoryUser}
    (h : w.add toLowercase user = .ok w') (id : Uuid) :
    w'.get id = if processUuid id = processUuid user.account.id then some user else w.get id := by
  have husers : w'.users = w.users.insert (processUuid user.account.id) user := by
    unfold MemoryValidator.add at h
    grind
  unfold MemoryValidator.get
  rw [husers]
  split_ifs with hid
  · rw [hid, Table.insert_self]
  · rw [Table.insert_of_ne _ hid]

/-- **The last entry wins.** An id leads to the last user of the list with its processed
UUID; without one, to what was there before. -/
theorem addUsers_get : ∀ {users : List UserConfig} {w w' : MemoryValidator},
    addUsers p config w users = .ok w' → ∀ id,
      w'.get id = (((users.filterMap (entryUser p config)).filter
        fun u => processUuid id = processUuid u.account.id).getLast?).or (w.get id)
  | [], w, w', h, id => by
    cases h
    simp
  | user :: users, w, w', h, id => by
    obtain ⟨uuid, w₁, huuid, hadd, hrest⟩ := addUsers_cons h
    have hentry : entryUser p config user = some (memoryUser config user uuid) := by
      simp [entryUser, huuid]
    rw [addUsers_get hrest id, add_get hadd, List.filterMap_cons_some hentry]
    by_cases hid : processUuid id = processUuid (memoryUser config user uuid).account.id
    · rw [if_pos hid, List.filter_cons_of_pos (by simpa using hid), List.getLast?_cons]
      cases ((users.filterMap (entryUser p config)).filter
        fun u => processUuid id = processUuid u.account.id).getLast? <;> simp
    · rw [if_neg hid, List.filter_cons_of_neg (by simpa using hid)]

end

/-! ## Dispatch -/

/-- What a connection meets. -/
inductive Handler where
  | serves (s : Section)
  /-- an error without a handler -/
  | refuses (s : Section)
  /-- `handle_connection`: VLESS on the socket itself -/
  | vless
  deriving DecidableEq, Repr

def endpointOrder : List Section := [.hysteria2, .tuic, .quic, .kcp, .webtransport, .wireguard]

def listenerOrder : List Section :=
  [.reality, .anytls, .shadowtls, .websocket, .httpupgrade, .grpc, .xhttp, .meek, .gdocsviewer, .hysteria2, .tuic,
    .webtransport, .tls, .shadowsocks, .mixed, .trojan, .vmess, .naive, .snell, .lua, .masque, .trusttunnel, .brook,
    .vlite, .tor, .ssh, .juicity, .mieru, .sudoku, .vlessEncryption, .shadowquic, .anytlsReality]

/-- The sections of the chain whose branch is an error: they use QUIC and do not
accept TCP sockets. -/
def listenerRefuses : List Section := [.hysteria2, .tuic, .webtransport]

section
variable (config : Config)

/-- mod.rs:713-971 -/
def runWithListener : Handler :=
  match listenerOrder.find? config.has with
  | some s => if s ∈ listenerRefuses then .refuses s else .serves s
  | none => .vless

/-- mod.rs:630-711 -/
def runUntilShutdown : Handler :=
  match endpointOrder.find? config.has with
  | some s => .serves s
  | none => runWithListener config

end

/-- One profile for each section, and VLESS on the socket itself. -/
inductive EndpointProfile where
  | raw
  | of (s : Section)
  deriving DecidableEq, Repr

def detectOrder : List Section :=
  [.reality, .anytls, .websocket, .httpupgrade, .grpc, .xhttp, .meek, .gdocsviewer, .quic, .kcp, .webtransport,
    .shadowtls, .vmess, .shadowsocks, .trojan, .hysteria2, .tuic, .mixed, .wireguard, .naive, .snell, .lua, .masque,
    .trusttunnel, .brook, .vlite, .tor, .ssh, .juicity, .mieru, .sudoku, .vlessEncryption,
    .shadowquic, .anytlsReality, .tls]

def detectProfile (cfg : Option Config) (overrideProfile : Option EndpointProfile) :
    EndpointProfile :=
  overrideProfile.getD <|
    match cfg with
    | none => .raw
    | some config =>
      match detectOrder.find? config.has with
      | some s => .of s
      | none => .raw

section
variable {config : Config}

theorem find_of_none {order : List Section} (h : ∀ s, config.has s = false) :
    order.find? config.has = none := by
  simp [List.find?_eq_none, h]

theorem runUntilShutdown_of_none (h : ∀ s, config.has s = false) :
    runUntilShutdown config = .vless := by
  simp [runUntilShutdown, runWithListener, find_of_none h]

theorem detectProfile_of_none (h : ∀ s, config.has s = false) :
    detectProfile (some config) none = .raw := by
  simp [detectProfile, find_of_none h]

variable {s : Section} (hs : config.has s = true) (honly : ∀ t, config.has t = true → t = s)
include hs honly

/-- In a chain of conditions, a section that is alone is the first to be found. -/
theorem find_of_only {order : List Section} :
    order.find? config.has = if s ∈ order then some s else none := by
  induction order with
  | nil => simp
  | cons t order ih => grind

/-- **A section that is alone is served.** -/
theorem runUntilShutdown_of_only : runUntilShutdown config = .serves s := by
  unfold runUntilShutdown runWithListener
  rw [find_of_only hs honly, find_of_only hs honly]
  cases s <;> rfl

/-- **A section that is alone is detected.** -/
theorem detectProfile_of_only : detectProfile (some config) none = .of s := by
  have hmem : s ∈ detectOrder := by cases s <;> decide
  simp [detectProfile, find_of_only hs honly, hmem]

end

end Wrongsv.L2.Server
