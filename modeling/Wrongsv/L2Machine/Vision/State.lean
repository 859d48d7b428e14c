import Wrongsv.L1Encoding.VisionFrame

/-!
# XTLS Vision: traffic state and TLS detection

`vless/vision.rs` keeps one `TrafficState` per relay direction
object: the user's UUID, the TLS detector (packet countdown, version and
cipher flags, bytes still missing from a ServerHello) and one
`DirectionState` for each of the two directions.

The `i32` counters are modelled as `Int`: every value the code stores is
between -1 and 65535 (`remaining_*`), a byte (`current_command`), or is only
decremented once per read (`number_of_packet_to_filter`).

The reader and the writer use the detector as a black box. What they need of
it is that it never touches the UUID or a direction
(`xtlsFilterTls_setDir`, `xtlsFilterTls_userUuid`).
-/
namespace Wrongsv.L2.Vision
open L1.VisionFrame

/-- The part of a direction that `unpadding_loop` reads and writes. -/
structure Counters where
  remainingCommand : Int
  remainingContent : Int
  remainingPadding : Int
  currentCommand : Int
  deriving DecidableEq, Repr

structure DirectionState extends Counters where
  withinPaddingBuffers : Bool
  directCopy : Bool
  isPadding : Bool
  initialBuffer : Bytes
  deriving DecidableEq, Repr

structure TrafficState where
  userUuid : Uuid
  numberOfPacketToFilter : Int
  enableXtls : Bool
  isTls12OrAbove : Bool
  isTls : Bool
  cipher : Nat
  remainingServerHello : Int
  inbound : DirectionState
  outbound : DirectionState
  deriving DecidableEq, Repr

/-- The direction both sides of `TrafficState::new` start with. -/
def DirectionState.new : DirectionState :=
  { withinPaddingBuffers := true, directCopy := false, remainingCommand := -1,
    remainingContent := -1, remainingPadding := -1, currentCommand := 0, isPadding := true,
    initialBuffer := [] }

/-- vision.rs:79-112. Every caller passes the 16
bytes of a user id, so the copy into a zeroed array is the id itself. -/
def TrafficState.new (userUuid : Uuid) : TrafficState :=
  { userUuid, numberOfPacketToFilter := 8, enableXtls := false, isTls12OrAbove := false,
    isTls := false, cipher := 0, remainingServerHello := -1, inbound := .new, outbound := .new }

/-- A new state whose detector has `packets` left to look at. -/
def TrafficState.counting (userUuid : Uuid) (packets : Int) : TrafficState :=
  { TrafficState.new userUuid with numberOfPacketToFilter := packets }

/-- The direction a reader works on: `inbound` for the uplink. The writer's
`writer_direction` is the other one (`dir !isUplink`). -/
def TrafficState.dir (s : TrafficState) (isUplink : Bool) : DirectionState :=
  if isUplink then s.inbound else s.outbound

def TrafficState.setDir (s : TrafficState) (isUplink : Bool) (d : DirectionState) : TrafficState :=
  if isUplink then { s with inbound := d } else { s with outbound := d }

section
variable (s : TrafficState) (up : Bool) (d d' : DirectionState)

@[simp] theorem setDir_dir : (s.setDir up d).dir up = d := by cases up <;> rfl

@[simp] theorem setDir_setDir : (s.setDir up d).setDir up d' = s.setDir up d' := by cases up <;> rfl

@[simp] theorem setDir_userUuid : (s.setDir up d).userUuid = s.userUuid := by cases up <;> rfl

@[simp] theorem setDir_filter :
    (s.setDir up d).numberOfPacketToFilter = s.numberOfPacketToFilter := by cases up <;> rfl

@[simp] theorem counting_dir (u : Uuid) (packets : Int) :
    (TrafficState.counting u packets).dir up = .new := by cases up <;> rfl

end

/-! ## TLS detection -/

def tlsAppDataStart : Bytes := [0x17, 0x03, 0x03]
def tlsClientHello : Bytes := [0x16, 0x03]
def tlsServerHello : Bytes := [0x16, 0x03, 0x03]
def tls13SupportedVersions : Bytes := [0x00, 0x2b, 0x00, 0x02, 0x03, 0x04]
def tlsHandshakeClientHello : UInt8 := 0x01
def tlsHandshakeServerHello : UInt8 := 0x02

def tls13CipherSuites : List (Nat × String) :=
  [(0x1301, "TLS_AES_128_GCM_SHA256"), (0x1302, "TLS_AES_256_GCM_SHA384"),
   (0x1303, "TLS_CHACHA20_POLY1305_SHA256"), (0x1304, "TLS_AES_128_CCM_SHA256"),
   (0x1305, "TLS_AES_128_CCM_8_SHA256")]

/-- The name looked up for the detected suite, `"unknown"` when it is none
of the TLS 1.3 ones. -/
def cipherName (cipher : Nat) : String :=
  ((tls13CipherSuites.find? (fun p => p.1 == cipher)).map (·.2)).getD "unknown"

/-- `buf.windows(pat.len()).any(|w| w == pat)` for a non-empty `pat`. -/
def hasWindow (pat : Bytes) : Bytes → Bool
  | [] => false
  | b :: rest => pat.isPrefixOf (b :: rest) || hasWindow pat rest

/-- The record-type branch of `xtls_filter_tls`. -/
def detectHello (buf : Bytes) (s : TrafficState) : TrafficState :=
  if buf.take 3 = tlsServerHello ∧ buf.getD 5 0 = tlsHandshakeServerHello then
    let s := { s with remainingServerHello := (u16 (buf.getD 3 0) (buf.getD 4 0) : Int) + 5,
                      isTls12OrAbove := true, isTls := true }
    if 79 ≤ buf.length ∧ 79 ≤ s.remainingServerHello then
      let csStart := 43 + (buf.getD 43 0).toNat + 1
      if csStart + 1 < buf.length then
        { s with cipher := u16 (buf.getD csStart 0) (buf.getD (csStart + 1) 0) }
      else s
    else s
  else if buf.take 2 = tlsClientHello ∧ buf.getD 5 0 = tlsHandshakeClientHello then
    { s with isTls := true }
  else s

/-- The ServerHello scan of `xtls_filter_tls`. -/
def scanServerHello (buf : Bytes) (s : TrafficState) : TrafficState :=
  if 0 < s.remainingServerHello then
    let stop := min s.remainingServerHello.toNat buf.length
    let s := { s with remainingServerHello := s.remainingServerHello - buf.length }
    if hasWindow tls13SupportedVersions (buf.take stop) then
      -- XTLS is enabled for every suite but CCM_8, an unknown one included
      if cipherName s.cipher ≠ "TLS_AES_128_CCM_8_SHA256" then
        { s with enableXtls := true, numberOfPacketToFilter := 0 }
      else { s with numberOfPacketToFilter := 0 }
    else if s.remainingServerHello ≤ 0 then { s with numberOfPacketToFilter := 0 }
    else s
  else s

/-- vision.rs:271-316 -/
def xtlsFilterTls (buf : Bytes) (s : TrafficState) : TrafficState :=
  let s := { s with numberOfPacketToFilter := s.numberOfPacketToFilter - 1 }
  if buf.length < 6 then s else scanServerHello buf (detectHello buf s)

/-- The guarded call both the reader and the writer make once per packet. -/
def filterPacket (buf : Bytes) (s : TrafficState) : TrafficState :=
  if 0 < s.numberOfPacketToFilter then xtlsFilterTls buf s else s

section
variable (buf : Bytes) (s : TrafficState) (up : Bool) (d : DirectionState)

theorem detectHello_setDir : detectHello buf (s.setDir up d) = (detectHello buf s).setDir up d := by
  unfold detectHello
  cases up <;> simp only [TrafficState.setDir, if_true, Bool.false_eq_true, if_false] <;>
    repeat' split
  all_goals rfl

theorem scanServerHello_setDir :
    scanServerHello buf (s.setDir up d) = (scanServerHello buf s).setDir up d := by
  unfold scanServerHello
  cases up <;> simp only [TrafficState.setDir, if_true, Bool.false_eq_true, if_false] <;>
    repeat' split
  all_goals rfl

theorem xtlsFilterTls_setDir :
    xtlsFilterTls buf (s.setDir up d) = (xtlsFilterTls buf s).setDir up d := by
  have h : { s.setDir up d with
      numberOfPacketToFilter := (s.setDir up d).numberOfPacketToFilter - 1 } =
      ({ s with numberOfPacketToFilter := s.numberOfPacketToFilter - 1 } : TrafficState).setDir up d := by
    cases up <;> rfl
  unfold xtlsFilterTls
  simp only [h]
  split
  · rfl
  · rw [detectHello_setDir, scanServerHello_setDir]

theorem filterPacket_setDir :
    filterPacket buf (s.setDir up d) = (filterPacket buf s).setDir up d := by
  unfold filterPacket
  rw [setDir_filter]
  split
  · exact xtlsFilterTls_setDir buf s up d
  · rfl

theorem setDir_self : s.setDir up (s.dir up) = s := by cases up <;> rfl

theorem filterPacket_dir : (filterPacket buf s).dir up = s.dir up := by
  have h := filterPacket_setDir buf s up (s.dir up)
  rw [setDir_self] at h
  rw [h, setDir_dir]

theorem detectHello_userUuid : (detectHello buf s).userUuid = s.userUuid := by
  simp only [detectHello]
  repeat' split
  all_goals rfl

theorem scanServerHello_userUuid : (scanServerHello buf s).userUuid = s.userUuid := by
  simp only [scanServerHello]
  repeat' split
  all_goals rfl

theorem filterPacket_userUuid : (filterPacket buf s).userUuid = s.userUuid := by
  unfold filterPacket xtlsFilterTls
  split
  · split
    · rfl
    · rw [scanServerHello_userUuid, detectHello_userUuid]
  · rfl

end

end Wrongsv.L2.Vision
