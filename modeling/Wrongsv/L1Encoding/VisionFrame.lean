import Wrongsv.Core

/-!
# XTLS Vision frames

The wire format of `vless/vision.rs`: a direction starts with the
16 bytes of the user's UUID, followed by frames

  command(1) content_len(2) padding_len(2) content padding

with big-endian lengths. Every frame but the last carries the command
CONTINUE. The last one carries END or DIRECT, and the bytes behind it are
not framed any more.

`VisionStream` is one such direction; `encode` is its byte string and
`payload` what it carries.
-/
namespace Wrongsv.L1.VisionFrame

/-- A user id: exactly 16 bytes (`[u8; 16]`). -/
structure Uuid where
  bytes : Bytes
  length_eq : bytes.length = 16
  deriving DecidableEq, Repr

def Uuid.ofByte (b : UInt8) : Uuid := ⟨List.replicate 16 b, List.length_replicate⟩

/-- `CMD_PADDING_CONTINUE` -/
def cmdPaddingContinue : UInt8 := 0x00

/-- How the framed part of a direction ends. -/
inductive Closing where
  | padEnd
  | padDirect
  deriving DecidableEq, Repr

/-- `CMD_PADDING_END`, `CMD_PADDING_DIRECT` -/
def Closing.command : Closing → UInt8
  | .padEnd => 0x01
  | .padDirect => 0x02

/-- Both lengths fit their two bytes. -/
structure Frame where
  content : Bytes
  padding : Bytes
  content_lt : content.length < 65536
  padding_lt : padding.length < 65536
  deriving DecidableEq, Repr

def Frame.empty : Frame := ⟨[], [], by decide, by decide⟩

def Frame.byte (b : UInt8) : Frame := { Frame.empty with content := [b], content_lt := by simp }

def Frame.header (f : Frame) (command : UInt8) : Bytes :=
  command :: (be16 f.content.length ++ be16 f.padding.length)

def Frame.encode (f : Frame) (command : UInt8) : Bytes := f.header command ++ f.content ++ f.padding

/-- The CONTINUE frames one after the other. -/
def encodeFrames (fs : List Frame) : Bytes := fs.flatMap (·.encode cmdPaddingContinue)

def contents (fs : List Frame) : Bytes := fs.flatMap (·.content)

/-- How a direction ends: the closing frame and the raw bytes behind it. -/
structure Ending where
  last : Frame
  closing : Closing
  raw : Bytes
  deriving DecidableEq, Repr

def Ending.encode (e : Ending) : Bytes := e.last.encode e.closing.command ++ e.raw

def Ending.payload (e : Ending) : Bytes := e.last.content ++ e.raw

/-- A complete direction: the UUID, CONTINUE frames, the ending. -/
structure VisionStream extends Ending where
  uuid : Uuid
  frames : List Frame
  deriving DecidableEq, Repr

def VisionStream.encode (v : VisionStream) : Bytes :=
  v.uuid.bytes ++ encodeFrames v.frames ++ v.toEnding.encode

/-- The bytes a stream carries: all contents, and what follows the last frame. -/
def VisionStream.payload (v : VisionStream) : Bytes := contents v.frames ++ v.toEnding.payload

end Wrongsv.L1.VisionFrame
