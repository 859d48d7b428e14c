import Wrongsv.L2Machine.Http2.Streams

/-!
# gRPC and XHTTP: the error of one stream ends the connection

The accept loops await the handler of each stream with `?` (server/handler/grpc.rs:241-252,
xhttp.rs:731-743). A refusal is `Ok`, but a bad VLESS header, an unknown user, an
unreachable target or an error of the relay ends the loop, and with it the connection and
the streams accepted behind it. The naive handler spawns a task for each stream
(naive.rs:285-296).

Spec clause: an error or a refusal of one stream does not end the connection, and every
other stream is handled as it would be alone.

Fix: spawn a task for each stream, or log its error and go on.
-/
namespace Wrongsv.Bugs.Http2StreamErrors
open L1.VisionFrame L1.VlessHeader L2.Http2Streams

/-- The connection task ends when there are no more streams, and each stream ends as on
a connection of its own. -/
def Independent (carrier : Carrier) (reg : Registry) (streams : List Stream) : Prop :=
  (driveConnection carrier reg (streams.map .stream)).result = .ok () ∧
    ∀ (i : Nat) (s : Stream), streams[i]? = some s →
      (driveConnection carrier reg (streams.map .stream)).handled[i]? =
        (driveConnection carrier reg [.stream s]).handled[0]?

/-- **Exactly without errors.** -/
theorem independent_iff (carrier : Carrier) (reg : Registry) (streams : List Stream) :
    Independent carrier reg streams ↔ ∀ s ∈ streams, carrier.refuses s.request = true ∨ s.Succeeds reg := by
  constructor
  · rintro ⟨hresult, -⟩ s hs
    rw [← handle_ok_iff]
    rcases @all_ok_or_error carrier reg streams with hall | ⟨front, s', later, e, rfl, hfront, hs'⟩
    · exact hall s hs
    · rw [drive_error hfront hs'] at hresult
      cases hresult
  · intro hall
    have hok : ∀ s ∈ streams, ∃ stop, handleRequestStream carrier reg s = .ok stop :=
      fun s hs => (handle_ok_iff s).mpr (hall s hs)
    rw [Independent, drive_ok hok]
    refine ⟨rfl, fun i s hs => ?_⟩
    rw [drive_single]
    simp [hs]

/-! ## Counterexample -/

def someRegistry : Registry := .single "" fun _ => .error ""

/-- TCP to 127.0.0.1:80. -/
def header (id : UInt8) : Bytes := [0] ++ List.replicate 16 id ++ [0, 1, 0, 80, 1, 127, 0, 0, 1]

def tun : Request := ⟨.post, "/GunService/Tun".toList, none⟩

def goodStream : Stream := ⟨tun, true, header 0xAA, true, true, true, true, true⟩

/-- The id is not that of a user. -/
def strangerStream : Stream := { goodStream with first := header 0xBB }

/-- Which streams ended without an error, and whether the connection task did. -/
def summary (r : ConnectionRun) : List Bool × Bool :=
  (r.handled.map fun stop => stop.toOption.isSome, r.result.toOption.isSome)

/-- **The good stream is never handled** behind the other one, and the connection ends
with an error; alone it is handled, and the connection goes on. -/
theorem second_stream_lost :
    (summary (driveConnection (.grpc "/GunService/Tun".toList) someRegistry
        [.stream strangerStream, .stream goodStream]) = ([false], false) ∧
      summary (driveConnection (.grpc "/GunService/Tun".toList) someRegistry [.stream goodStream]) =
        ([true], true)) ∧
    (summary (driveConnection (.xhttp ['/'] none) someRegistry
        [.stream strangerStream, .stream goodStream]) = ([false], false) ∧
      summary (driveConnection (.xhttp ['/'] none) someRegistry [.stream goodStream]) = ([true], true)) := by
  decide +kernel

end Wrongsv.Bugs.Http2StreamErrors
