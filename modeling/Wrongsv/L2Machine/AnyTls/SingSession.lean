import Wrongsv.Core.Table
import Wrongsv.L2Machine.AnyTls.SessionReader

/-!
# sing-anytls: streams of a session

`session_reader_loop` hands the data of PSH frames to the streams of its session through one
`mpsc` channel per stream, and stream threads take them out with `read_chunk` and
`try_read_chunk`. A stream is in the `streams` map from its SYN to the first FIN, which the
client sends or which a stream thread queues for writing.

Three actors: the loop, with a program point for each place where it can be interrupted;
the stream threads, which read; and everyone with a `SessionWriter`, who queues jobs. A run
is a list of actions. What the loop does does not depend on the streams, so a run gives
first a list of operations on the session (`operations`), and these give the results of the
reads (`transcript`).
-/
namespace Wrongsv.L2.AnyTls

def cmdWaste : UInt8 := 0
def cmdFin : UInt8 := 3
def cmdHeartReq : UInt8 := 8

/-! ## Streams -/

/-- A stream with the channel it reads from.
anytls/stream.rs:10-18 -/
structure SingStream where
  queue : List Bytes
  buffer : Bytes
  bufPos : Nat
  closed : Bool
  deriving DecidableEq, Repr

def SingStream.new : SingStream := ⟨[], [], 0, false⟩

/-- What a call of a stream thread comes back with; `blocked` is one that waits in
`recv`. -/
inductive ReadResult where
  | chunk (data : Bytes)
  | none
  | blocked
  deriving DecidableEq, Repr

/-- Both reads: they differ in what an empty channel with a sender means. -/
def SingStream.receive (onEmpty : ReadResult) (connected : Bool) (s : SingStream) :
    ReadResult × SingStream :=
  if s.closed then (.none, s)
  else if s.bufPos < s.buffer.length then
    (.chunk (s.buffer.drop s.bufPos), { s with bufPos := s.buffer.length })
  else match s.queue with
    | data :: queue => (.chunk data, { s with queue, buffer := data, bufPos := data.length })
    | [] => if connected then (onEmpty, s) else (.none, { s with closed := true })

def SingStream.readChunk : Bool → SingStream → ReadResult × SingStream :=
  SingStream.receive .blocked

/-- anytls/stream.rs:59-81 -/
def SingStream.tryReadChunk : Bool → SingStream → ReadResult × SingStream :=
  SingStream.receive .none

inductive ReadCall where
  | readChunk
  | tryReadChunk
  deriving DecidableEq, Repr

def ReadCall.run : ReadCall → Bool → SingStream → ReadResult × SingStream
  | .readChunk => SingStream.readChunk
  | .tryReadChunk => SingStream.tryReadChunk

/-! ## The session -/

/-- The `streams` map and the streams the threads have. An id may be opened again:
`streams` holds the sender of the stream with that number among those of the id.
anytls/session.rs:254-258 -/
structure SingSession where
  streams : Table UInt32 Nat
  opened : UInt32 → List SingStream

namespace SingSession

def new : SingSession := ⟨.empty, fun _ => []⟩

def createStream (s : SingSession) (sid : UInt32) : SingSession :=
  ⟨s.streams.insert sid (s.opened sid).length,
    Function.update s.opened sid (s.opened sid ++ [.new])⟩

/-- The stream `n` of an id after something happened to it. -/
def setStream (s : SingSession) (sid : UInt32) (n : Nat) (stream : SingStream) : SingSession :=
  { s with opened := Function.update s.opened sid ((s.opened sid).set n stream) }

def deliverData (s : SingSession) (sid : UInt32) (data : Bytes) : SingSession :=
  match s.streams sid with
  | none => s
  | some n =>
    match (s.opened sid)[n]? with
    | none => s
    | some stream => s.setStream sid n { stream with queue := stream.queue ++ [data] }

def closeStream (s : SingSession) (sid : UInt32) : SingSession :=
  { s with streams := s.streams.remove sid }

end SingSession

/-- What happens to a session. `stop` is its end with the loop, when all senders are
dropped. -/
inductive Op where
  | syn (sid : UInt32)
  | psh (sid : UInt32) (data : Bytes)
  | fin (sid : UInt32)
  | read (sid : UInt32) (n : Nat) (call : ReadCall)
  | stop
  deriving DecidableEq, Repr

def Op.sid : Op → Option UInt32
  | .syn sid | .psh sid _ | .fin sid | .read sid _ _ => some sid
  | .stop => none

/-- The session behind an operation, and the result of a read. -/
def Op.apply (s : SingSession) : Op → Option ReadResult × SingSession
  | .syn sid => (none, s.createStream sid)
  | .psh sid data => (none, s.deliverData sid data)
  | .fin sid => (none, s.closeStream sid)
  | .stop => (none, { s with streams := .empty })
  | .read sid n call =>
    match (s.opened sid)[n]? with
    | none => (none, s)
    | some stream =>
      let r := call.run (decide (s.streams sid = some n)) stream
      (some r.1, s.setStream sid n r.2)

/-- The operations with the results of the reads. -/
def transcript (s : SingSession) : List Op → List (Op × Option ReadResult)
  | [] => []
  | op :: ops => (op, (op.apply s).1) :: transcript (op.apply s).2 ops

def after (s : SingSession) (ops : List Op) : SingSession :=
  ops.foldl (fun s op => (op.apply s).2) s

/-! ## The loop -/

abbrev WriteJob := Frame

/-- The outcome of the loop's next call on the connection: a `try_read_exact` that
filled its buffer, or a `write_frame` that worked; `WouldBlock`; any other error. -/
inductive Io where
  | ok (bytes : Bytes)
  | wouldBlock
  | failed
  deriving DecidableEq, Repr

/-- Where the loop is. `drain next` writes the queued jobs and goes on at `next`. -/
inductive Pc where
  | header
  | data (cmd : UInt8) (sid : UInt32) (len : Nat)
  | handle (f : Frame)
  | drain (next : Pc)
  | exit
  | stopped
  deriving DecidableEq, Repr

structure Loop where
  jobs : List WriteJob
  pc : Pc
  deriving DecidableEq, Repr

def Loop.start : Loop := ⟨[], .header⟩

/-- anytls/session.rs:284-289 -/
def applyOutgoingStreamState (job : WriteJob) : List Op :=
  if job.cmd = cmdFin then [.fin job.sid] else []

/-- The `match cmd` at the end of the loop body. A HEARTREQ is answered, and the
result of the write is ignored. -/
def handleFrame (f : Frame) : List Op × Pc :=
  if f.cmd = cmdSyn then ([.syn f.sid], .header)
  else if f.cmd = cmdPsh then ([.psh f.sid f.data], .header)
  else if f.cmd = cmdFin then ([.fin f.sid], .header)
  else if f.cmd = cmdWaste then ([], .header)
  else if f.cmd = cmdAlert then ([], .exit)
  else if f.cmd = cmdHeartReq then ([], .header)
  else ([], .header)

/-- The loop up to its next interruption. -/
def loopStep (io : Io) (l : Loop) : List Op × Loop :=
  match l.pc with
  | .header =>
    match io with
    | .ok hdr =>
      let (cmd, sid, len) := parseHeader hdr
      ([], { l with pc := .drain (.data cmd sid len) })
    | .wouldBlock => ([], { l with pc := .drain .header })
    | .failed => ([], { l with pc := .drain .exit })
  | .data cmd sid len =>
    if len = 0 then ([], { l with pc := .drain (.handle ⟨cmd, sid, []⟩) })
    else match io with
      | .ok data => ([], { l with pc := .drain (.handle ⟨cmd, sid, data⟩) })
      | .wouldBlock => ([], { l with pc := .drain (.data cmd sid len) })
      | .failed => ([], { l with pc := .exit })
  | .handle f => ((handleFrame f).1, { l with pc := (handleFrame f).2 })
  | .drain next =>
    match l.jobs with
    | [] => ([], { l with pc := next })
    | job :: jobs =>
      match io with
      | .ok _ => (applyOutgoingStreamState job, { l with jobs })
      -- `write_frame(..)?` ends the loop
      | _ => ([], ⟨jobs, .exit⟩)
  | .exit => ([.stop], { l with pc := .stopped })
  | .stopped => ([], l)

inductive Action where
  | loop (io : Io)
  | queue (job : WriteJob)
  | read (sid : UInt32) (n : Nat) (call : ReadCall)
  deriving DecidableEq, Repr

/-- A job queued behind the end of the loop has no receiver. -/
def act (l : Loop) : Action → List Op × Loop
  | .loop io => loopStep io l
  | .queue job => ([], if l.pc = .stopped then l else { l with jobs := l.jobs ++ [job] })
  | .read sid n call => ([.read sid n call], l)

/-- The operations of a run, in the order in which they happen. -/
def operations (l : Loop) : List Action → List Op
  | [] => []
  | a :: actions => (act l a).1 ++ operations (act l a).2 actions

end Wrongsv.L2.AnyTls
