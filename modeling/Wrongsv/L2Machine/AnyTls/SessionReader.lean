import Wrongsv.Core.Schedule
import Wrongsv.L2Machine.TlsConn

/-!
# sing-anytls: the session reader

After authentication the client multiplexes streams over one TLS connection with frames
`cmd(1) | sid(4) | len(2) | data`. `session_reader_loop` (anytls/session.rs) takes one frame
after the other off it, with `try_read_exact` for the seven header bytes and again for the
data. The socket has a read timeout, so either call may return `WouldBlock`; both are then
repeated from the start.

Modelled is the way from the TLS records to the frames the loop handles; what handling a
frame does, and the outgoing frames, do not touch the reading side.

For `try_read_exact` only the positions of the `WouldBlock`s on the socket count
(`tryReadExact_schedule`).
-/
namespace Wrongsv.L2.AnyTls
open L2.TlsConn List

/-! ## Frames -/

def cmdSyn : UInt8 := 1
def cmdPsh : UInt8 := 2
def cmdAlert : UInt8 := 5

structure Frame where
  cmd : UInt8
  sid : UInt32
  data : Bytes
  deriving DecidableEq, Repr

/-- A frame a client can send: the length field has 16 bits. -/
structure ClientFrame extends Frame where
  short : data.length < 65536

def frameHeader (cmd : UInt8) (sid : UInt32) (dataLen : Nat) : Bytes :=
  [cmd] ++ be32 sid ++ be16 dataLen

def Frame.encode (f : Frame) : Bytes := frameHeader f.cmd f.sid f.data.length ++ f.data

def encodeFrames (frames : List ClientFrame) : Bytes := (frames.map (·.encode)).flatten

/-- The fields of a header. -/
def parseHeader : Bytes → UInt8 × UInt32 × Nat
  | [cmd, s1, s2, s3, s4, l1, l2] => (cmd, u32 s1 s2 s3 s4, u16 l1 l2)
  -- `hdr` is an array of seven bytes
  | _ => (0, 0, 0)

theorem parseHeader_frameHeader (cmd : UInt8) (sid : UInt32) (dataLen : Nat) (h : dataLen < 65536) :
    parseHeader (frameHeader cmd sid dataLen) = (cmd, sid, dataLen) := by
  show (cmd, u32 _ _ _ _, u16 (UInt8.ofNat (dataLen / 256)) (UInt8.ofNat dataLen)) = _
  rw [u32_be32, u16_be16 dataLen h]

/-! ## The connection -/

abbrev Tls := TlsConn.Conn

/-- The loop of `try_read_exact` with `got` already in `buf`. The reader gives
what is decrypted; an empty one, whether it says `Ok(0)` or `WouldBlock`, has
the loop pull the next record. -/
def Tls.tryReadExact.go (want : Nat) (got plaintext : Bytes) (socket : List Pull) :
    ReadExact × Tls :=
  if want - got.length ≤ plaintext.length then
    (.done (got ++ plaintext.take (want - got.length)), ⟨plaintext.drop (want - got.length), socket⟩)
  else
    match socket with
    | [] => (.eof (got ++ plaintext), ⟨[], []⟩)
    | .wouldBlock :: socket => (.block (got ++ plaintext), ⟨[], socket⟩)
    | .data _ bytes :: socket => go want (got ++ plaintext) bytes socket

/-- session.rs:81-134 -/
def Tls.tryReadExact (c : Tls) (want : Nat) : ReadExact × Tls :=
  Tls.tryReadExact.go want [] c.plaintext c.socket

/-- The stretches of plaintext between the `WouldBlock`s. -/
def Tls.schedule.go (avail : Bytes) : List Pull → Schedule
  | [] => ⟨avail, []⟩
  | .data _ bytes :: socket => go (avail ++ bytes) socket
  | .wouldBlock :: socket => ⟨avail, (go [] socket).avail :: (go [] socket).later⟩

def Tls.schedule (c : Tls) : Schedule := Tls.schedule.go c.plaintext c.socket

theorem schedule_go_append (socket : List Pull) : ∀ (a b : Bytes), Tls.schedule.go (a ++ b) socket =
      ⟨a ++ (Tls.schedule.go b socket).avail, (Tls.schedule.go b socket).later⟩ := by
  induction socket with
  | nil => intro a b; rfl
  | cons pull socket ih =>
    intro a b
    cases pull with
    | data wire bytes => simp only [Tls.schedule.go, append_assoc, ih]
    | wouldBlock => rfl

theorem tryReadExact_enough (want : Nat) (socket : List Pull) (got plaintext : Bytes)
    (hg : got.length ≤ want) (hr : want - got.length ≤ plaintext.length) :
    ReadExact.done (got ++ plaintext.take (want - got.length)) =
        ((Tls.schedule.go (got ++ plaintext) socket).readExact want).1 ∧
      Tls.schedule.go (plaintext.drop (want - got.length)) socket =
        ((Tls.schedule.go (got ++ plaintext) socket).readExact want).2 := by
  have hw : want ≤ (got ++ plaintext).length := by rw [length_append]; omega
  have ht : (got ++ plaintext).take want = got ++ plaintext.take (want - got.length) := by
    rw [take_append, take_of_length_le hg]
  have hd : (got ++ plaintext).drop want = plaintext.drop (want - got.length) := by
    rw [drop_append, drop_of_length_le hg, nil_append]
  have h1 := schedule_go_append socket (got ++ plaintext) []
  have h2 := schedule_go_append socket (plaintext.drop (want - got.length)) []
  rw [append_nil] at h1 h2
  have hle : want ≤ (got ++ plaintext ++ (Tls.schedule.go [] socket).avail).length := by
    rw [length_append]; omega
  simp only [h1, h2, Schedule.readExact, if_pos hle, take_append_of_le_length hw,
    drop_append_of_le_length hw, ht, hd, and_self]

theorem tryReadExact_go (want : Nat) (socket : List Pull) (got plaintext : Bytes)
    (hg : got.length ≤ want) : (Tls.tryReadExact.go want got plaintext socket).1 =
        ((Tls.schedule.go (got ++ plaintext) socket).readExact want).1 ∧
      (Tls.tryReadExact.go want got plaintext socket).2.schedule =
        ((Tls.schedule.go (got ++ plaintext) socket).readExact want).2 := by
  fun_induction Tls.tryReadExact.go want got plaintext socket with
  | case1 socket got plaintext hr => exact tryReadExact_enough want socket got plaintext hg hr
  | case2 got plaintext hr =>
    rw [Schedule.readExact_eof (by simp only [Tls.schedule.go, length_append]; omega) rfl]
    exact ⟨rfl, rfl⟩
  | case3 got plaintext hr socket =>
    have hlt : (Tls.schedule.go (got ++ plaintext) (.wouldBlock :: socket)).avail.length < want := by
      simp only [Tls.schedule.go, length_append]
      omega
    rw [(Schedule.readExact_block hlt rfl 0).1]
    exact ⟨rfl, rfl⟩
  | case4 got plaintext hr wire bytes socket ih => exact ih (by rw [length_append]; omega)

/-- **`try_read_exact` sees the stretches only**, not the records. -/
theorem tryReadExact_schedule (c : Tls) (want : Nat) :
    (c.tryReadExact want).1 = (c.schedule.readExact want).1 ∧
      (c.tryReadExact want).2.schedule = (c.schedule.readExact want).2 :=
  tryReadExact_go want c.socket [] c.plaintext (Nat.zero_le _)

/-! ## The loop -/

/-- The data of a frame; `dropped` is what calls that ended in `WouldBlock` had
already taken off the connection. -/
structure DataRead where
  data : Option Bytes
  dropped : Bytes
  conn : Tls
  deriving DecidableEq, Repr

/-- `try_read_exact` into `data`, again and again until it has worked. -/
def Tls.readData.go (len : Nat) : Nat → Tls → DataRead
  | 0, c => ⟨none, [], c⟩
  | fuel + 1, c =>
    let r := c.tryReadExact len
    match r.1 with
    | .done data => ⟨some data, [], r.2⟩
    | .block got =>
      let d := go len fuel r.2
      { d with dropped := got ++ d.dropped }
    | .eof _ => ⟨none, [], r.2⟩

def Tls.readData (c : Tls) (len : Nat) : DataRead :=
  if len = 0 then ⟨some [], [], c⟩ else Tls.readData.go len (c.schedule.later.length + 1) c

inductive Exit where
  /-- `Ok(())` on an ALERT frame -/
  | alert
  /-- the error of a connection that has ended -/
  | eof
  deriving DecidableEq, Repr

/-- What a run of the loop has done. -/
structure Session where
  handled : List Frame
  dropped : Bytes
  exit : Option Exit
  deriving DecidableEq, Repr

def Session.dropping (got : Bytes) (s : Session) : Session := { s with dropped := got ++ s.dropped }

def Session.handling (f : Frame) (s : Session) : Session := { s with handled := f :: s.handled }

def sessionReaderLoop.go : Nat → Tls → Session
  | 0, _ => ⟨[], [], none⟩
  | fuel + 1, c =>
    let h := c.tryReadExact 7
    match h.1 with
    | .block got => (go fuel h.2).dropping got
    | .eof _ => ⟨[], [], some .eof⟩
    | .done hdr =>
      let (cmd, sid, dataLen) := parseHeader hdr
      let d := h.2.readData dataLen
      match d.data with
      | none => ⟨[], d.dropped, some .eof⟩
      | some data =>
        if cmd = cmdAlert then ⟨[⟨cmd, sid, data⟩], d.dropped, some .alert⟩
        else ((go fuel d.conn).handling ⟨cmd, sid, data⟩).dropping d.dropped

/-- Every pass takes a byte or a `WouldBlock`.
session.rs:382-485 -/
def sessionReaderLoop (c : Tls) : Session := sessionReaderLoop.go (c.schedule.weight + 1) c

end Wrongsv.L2.AnyTls
