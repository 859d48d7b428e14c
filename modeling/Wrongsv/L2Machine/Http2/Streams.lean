import Wrongsv.L1Encoding.HttpUpgradeHead
import Wrongsv.L2Machine.Vless.Carriers

/-!
# The streams of an HTTP/2 connection

`drive_grpc_connection` and `drive_xhttp_connection` (server/handler/grpc.rs,
xhttp.rs) take the streams of a connection one after the other. A stream is refused
with 404, or answered with 200 and handed to a relay thread; the loop waits for the
relay and both directions of the stream, and `?` returns their errors.

What the surroundings of a stream do is part of its description (`Stream`): whether
the response and the answer get through, the first bytes the relay reads, whether the
target is reached, and how relay and drivers end. Streams whose handling never ends
are left out, and panics.

Results: `handle_ok_iff`, `drive_ok`, `drive_error`.
-/
namespace Wrongsv.L2.Http2Streams
open L1.HttpUpgrade L1.HttpUpgradeHead L1.VlessHeader L2.Vless

inductive Method where
  | post
  | other
  deriving DecidableEq, Repr

structure Request where
  method : Method
  path : Text
  /-- the `host` header, if it is a text -/
  host : Option Text
  deriving DecidableEq, Repr

/-- The two handlers with their settings. -/
inductive Carrier where
  | grpc (servicePath : Text)
  | xhttp (path : Text) (host : Option Text)
  deriving DecidableEq, Repr

/-- `normalize_xhttp_host` is `normalize_host` once more.
xhttp.rs:360-362 -/
def xhttpHostMatches (expected actual : Text) : Bool :=
  normalizeHost expected == normalizeHost actual

/-- What is answered with 404. gRPC wants its path, XHTTP what starts with it.
grpc.rs:276-287 and xhttp.rs:768-794 -/
def Carrier.refuses : Carrier → Request → Bool
  | .grpc servicePath, request => request.method ≠ .post || request.path ≠ servicePath
  | .xhttp path host, request =>
    request.method ≠ .post || !path.isPrefixOf request.path ||
      match host with
      | none => false
      | some expected => !xhttpHostMatches expected (request.host.getD [])

/-- A stream and what happens to it. -/
structure Stream where
  request : Request
  /-- the response headers can be sent -/
  responds : Bool
  /-- what the relay's first read returns -/
  first : Bytes
  /-- the VLESS response is taken -/
  answers : Bool
  /-- `connect_tcp_target` succeeds -/
  connects : Bool
  /-- the relay itself ends with `Ok` -/
  relays : Bool
  outgoing : Bool
  incoming : Bool
  deriving DecidableEq, Repr

inductive RelayError where
  /-- "gRPC closed before VLESS header", "XHTTP closed before VLESS header" -/
  | closed
  | serve (e : ServeError)
  | answer
  | connect
  | relay
  deriving DecidableEq, Repr

inductive StreamError where
  | sendResponse
  | outgoing
  | relay (e : RelayError)
  | incoming
  deriving DecidableEq, Repr

inductive StreamEnd where
  | refused
  | finished
  deriving DecidableEq, Repr

/-- grpc.rs:425-487 and xhttp.rs:1032-1094 -/
def handleVless (reg : Registry) (s : Stream) : Except RelayError Unit :=
  if s.first = [] then .error .closed
  else
    match decodeVlessRequest reg s.first with
    | .error e => .error (.serve e)
    | .ok r =>
      let outcome := serveStream (·.userSentId) r
      if outcome.replies ≠ [] ∧ s.answers = false then .error .answer
      else
        match outcome.relay with
        | .error e => .error (.serve e)
        | .ok none => .ok ()
        | .ok (some (.udp _ _)) => if s.relays then .ok () else .error .relay
        | .ok (some _) =>
          if s.connects = false then .error .connect else if s.relays then .ok () else .error .relay

/-- grpc.rs:266-323 and xhttp.rs:757-829 -/
def handleRequestStream (carrier : Carrier) (reg : Registry) (s : Stream) :
    Except StreamError StreamEnd :=
  if carrier.refuses s.request then .ok .refused
  else if s.responds = false then .error .sendResponse
  else if s.outgoing = false then .error .outgoing
  else
    match handleVless reg s with
    | .error e => .error (.relay e)
    | .ok () => if s.incoming then .ok .finished else .error .incoming

/-! ## The connection -/

/-- What `conn.accept()` brings. -/
inductive Accepted where
  | stream (s : Stream)
  | failed
  deriving DecidableEq, Repr

inductive ConnectionError where
  /-- "gRPC connection error", "XHTTP connection error" -/
  | accept
  | stream (e : StreamError)
  deriving DecidableEq, Repr

/-- How the streams that were handled ended, and how the connection task did. -/
structure ConnectionRun where
  handled : List (Except StreamError StreamEnd)
  result : Except ConnectionError Unit

/-- grpc.rs:241-256 and xhttp.rs:731-747 -/
def driveConnection (carrier : Carrier) (reg : Registry) : List Accepted → ConnectionRun
  | [] => ⟨[], .ok ()⟩
  | .failed :: _ => ⟨[], .error .accept⟩
  | .stream s :: rest =>
    match handleRequestStream carrier reg s with
    | .error e => ⟨[.error e], .error (.stream e)⟩
    | .ok stop => ⟨.ok stop :: (driveConnection carrier reg rest).handled, (driveConnection carrier reg rest).result⟩

section
variable {carrier : Carrier} {reg : Registry}

/-- A stream that is accepted and ends well. -/
structure Stream.Succeeds (reg : Registry) (s : Stream) : Prop where
  responds : s.responds = true
  outgoing : s.outgoing = true
  vless : handleVless reg s = .ok ()
  incoming : s.incoming = true

/-- **Without an error** end exactly the refused streams and those where all goes well. -/
theorem handle_ok_iff (s : Stream) : (∃ stop, handleRequestStream carrier reg s = .ok stop) ↔
    carrier.refuses s.request = true ∨ s.Succeeds reg := by
  unfold handleRequestStream
  constructor
  · rintro ⟨stop, h⟩
    split at h
    · exact .inl ‹_›
    split at h
    · cases h
    split at h
    · cases h
    split at h
    · cases h
    split at h
    · exact .inr ⟨by simpa using ‹¬s.responds = false›, by simpa using ‹¬s.outgoing = false›, ‹_›, ‹_›⟩
    · cases h
  · rintro (h | h)
    · exact ⟨.refused, by rw [if_pos h]⟩
    · by_cases hrefuses : carrier.refuses s.request = true
      · exact ⟨.refused, by rw [if_pos hrefuses]⟩
      · exact ⟨.finished, by simp [hrefuses, h.responds, h.outgoing, h.vless, h.incoming]⟩

theorem drive_single (s : Stream) :
    (driveConnection carrier reg [.stream s]).handled = [handleRequestStream carrier reg s] := by
  rw [driveConnection]
  cases handleRequestStream carrier reg s with
  | error e => rfl
  | ok stop => rfl

/-- **Streams without an error** are all handled. -/
theorem drive_ok {streams : List Stream} (h : ∀ s ∈ streams, ∃ stop, handleRequestStream carrier reg s = .ok stop) :
    driveConnection carrier reg (streams.map .stream) = ⟨streams.map (handleRequestStream carrier reg), .ok ()⟩ := by
  induction streams with
  | nil => rfl
  | cons s streams ih =>
    obtain ⟨stop, hs⟩ := h s List.mem_cons_self
    rw [List.map_cons, driveConnection, hs, ih fun s' hs' => h s' (List.mem_cons_of_mem _ hs')]
    simp [hs]

/-- **The first error** is the last thing the connection does. -/
theorem drive_error {front later : List Stream} {s : Stream} {e : StreamError}
    (hfront : ∀ s ∈ front, ∃ stop, handleRequestStream carrier reg s = .ok stop)
    (hs : handleRequestStream carrier reg s = .error e) :
    driveConnection carrier reg ((front ++ s :: later).map .stream) =
      ⟨(front ++ [s]).map (handleRequestStream carrier reg), .error (.stream e)⟩ := by
  induction front with
  | nil => simp [driveConnection, hs]
  | cons s' front ih =>
    obtain ⟨stop, hs'⟩ := hfront s' List.mem_cons_self
    have hrest := ih fun s'' h => hfront s'' (List.mem_cons_of_mem _ h)
    rw [List.cons_append, List.map_cons, driveConnection, hs', hrest]
    simp [hs']

theorem all_ok_or_error (streams : List Stream) :
    (∀ s ∈ streams, ∃ stop, handleRequestStream carrier reg s = .ok stop) ∨
      ∃ front s later e, streams = front ++ s :: later ∧
        (∀ s ∈ front, ∃ stop, handleRequestStream carrier reg s = .ok stop) ∧
        handleRequestStream carrier reg s = .error e := by
  induction streams with
  | nil => exact .inl fun s hs => (nomatch hs)
  | cons s streams ih =>
    cases hs : handleRequestStream carrier reg s with
    | error e => exact .inr ⟨[], s, streams, e, rfl, fun s hs => (nomatch hs), hs⟩
    | ok stop =>
      rcases ih with hall | ⟨front, s', later, e, rfl, hfront, hs'⟩
      · refine .inl fun s' hs' => ?_
        rcases List.mem_cons.mp hs' with rfl | hmem
        · exact ⟨stop, hs⟩
        · exact hall s' hmem
      · refine .inr ⟨s :: front, s', later, e, rfl, fun s'' hs'' => ?_, hs'⟩
        rcases List.mem_cons.mp hs'' with rfl | hmem
        · exact ⟨stop, hs⟩
        · exact hfront s'' hmem

end

end Wrongsv.L2.Http2Streams
