import Wrongsv.L2Machine.Http2.BodyWindow

/-!
# gRPC and XHTTP: receive windows are never returned

`drive_incoming` of both handlers takes DATA chunks out of the request body and never calls
`release_capacity` (server/handler/grpc.rs:331-350, xhttp.rs:835-846). A client has the
initial window for the whole upload: 1 MiB for the stream, but 65535 bytes for the
connection. The naive handler releases each chunk (naive.rs:424).

Spec clause: the bytes released to the flow control are those of all chunks handled so far.

Fix: `body.flow_control().release_capacity(data.len())` after the chunk was passed on.
-/
namespace Wrongsv.Bugs.Http2BodyWindow
open Framing L1.GrpcHunk L2.Http2BodyWindow List

section
variable (stream connection : Nat) (carrier : Carrier)

/-- Released is what was handled, after every chunk. -/
def Balanced (events : List Event) : Prop :=
  ∀ front, front <+: events → (run (Body.new stream connection carrier) front).window.released =
    (handled (Body.new stream connection carrier) front).flatten.length

/-- The chunks that were handled have no bytes. -/
def Silent (events : List Event) : Prop :=
  ∀ chunk ∈ handled (Body.new stream connection carrier) events, chunk = []

/-- A handler that waits for more has a client that may send more. -/
def NeverCutOff : Prop :=
  ∀ events, (run (Body.new stream connection carrier) events).driver.isSome →
    0 < (run (Body.new stream connection carrier) events).window.stream ∧
      0 < (run (Body.new stream connection carrier) events).window.connection

end

/-! ## An upload that uses up the window -/

theorem emptyHunk_frames (c : HunkCodec) (n : Nat) :
    Frame.stream (List.replicate n (Hunk.empty c).frame) = List.replicate (n * 5) 0 := by
  induction n with
  | zero => simp
  | succ n ih =>
    have hframe : (Hunk.empty c).frame.bytes = List.replicate 5 0 := by
      show encodeHunkFrame c [] = _
      rw [encodeHunkFrame, c.encode_nil]
      rfl
    rw [replicate_succ, Frame.stream_cons, ih, hframe, Nat.succ_mul, Nat.add_comm (n * 5), replicate_add]

theorem drain_zeros (c : HunkCodec) (n : Nat) : ∃ frames left,
    (decoder c).drain (List.replicate n 0) = (frames, .ok (List.replicate left 0)) := by
  have hbytes : List.replicate n 0 ++ List.replicate (n * 4) 0 =
      Frame.stream (List.replicate n (Hunk.empty c).frame) ++ [] := by
    rw [emptyHunk_frames, append_nil, replicate_append_replicate]
    congr 1
    omega
  have hcut : Frame.Cut (decoder c) [] := ⟨(Hunk.empty c).frame, 0, Nat.zero_lt_succ _, rfl⟩
  obtain ⟨done, left, rest, hsplit, hdrain, hrest, -⟩ := Frame.drain_stream hcut _ _ hbytes
  -- what is left is a part of the zeros of the frames that are left
  have hleft : left = List.replicate left.length (Hunk.empty c).frame :=
    eq_replicate_of_mem fun f hf => eq_of_mem_replicate (hsplit ▸ mem_append_right done hf)
  rw [hleft, emptyHunk_frames, append_nil] at hrest
  have hzeros : rest = List.replicate rest.length 0 := (append_eq_replicate_iff.mp hrest).2.1
  exact ⟨_, rest.length, by rw [hdrain, ← hzeros]⟩

/-- A handler that does not release and has been sent zeros only. -/
inductive OnZeros : Uplink → Prop where
  | grpc (c : HunkCodec) (n : Nat) : OnZeros (.grpc c (List.replicate n 0))
  | xhttp : OnZeros .xhttp

/-- It goes on after any number of zeros. -/
theorem handle_zeros {u : Uplink} (h : OnZeros u) (n : Nat) :
    ∃ u', OnZeros u' ∧ u.handle (List.replicate n 0) true = .goesOn u' none := by
  cases h with
  | grpc c k =>
    obtain ⟨frames, left, hdrain⟩ := drain_zeros c (k + n)
    refine ⟨.grpc c (List.replicate left 0), .grpc c left, ?_⟩
    simp [Uplink.handle, hdrain]
  | xhttp => exact ⟨.xhttp, .xhttp, rfl⟩

/-- `count` chunks of `n` zeros, which the client may send. -/
theorem run_zeros {n : Nat} (hn : n ≤ 16384) (count : Nat) : ∀ {b : Body} {u : Uplink}, b.driver =
    some u → OnZeros u → count * n ≤ b.window.stream → count * n ≤ b.window.connection →
    ∃ u', OnZeros u' ∧ run b (List.replicate count (.data (List.replicate n 0) true)) =
      ⟨b.window.receive (count * n), some u'⟩ := by
  induction count with
  | zero =>
    intro b u hdriver hu _ _
    refine ⟨u, hu, ?_⟩
    simp [run, Window.receive, ← hdriver]
  | succ count ih =>
    intro b u hdriver hu hstream hconnection
    rw [Nat.succ_mul] at hstream hconnection
    obtain ⟨u₁, hu₁, hhandle⟩ := handle_zeros hu n
    have hadmits : b.window.Admits (List.replicate n 0) := by
      rw [Window.Admits, length_replicate]
      omega
    have hstep : step b (.data (List.replicate n 0) true) = ⟨b.window.receive n, some u₁⟩ := by
      simp only [step, hdriver, if_pos hadmits, hhandle, length_replicate]
    obtain ⟨u₂, hu₂, hrun⟩ := @ih ⟨b.window.receive n, some u₁⟩ u₁ rfl hu₁ (by simp only [Window.receive]; omega)
      (by simp only [Window.receive]; omega)
    refine ⟨u₂, hu₂, ?_⟩
    show run (step b (.data (List.replicate n 0) true)) _ = _
    rw [hstep, hrun, Nat.succ_mul]
    simp only [Window.receive, Body.mk.injEq, Window.mk.injEq, and_true]
    omega

theorem onZeros_start {carrier : Carrier} (h : ¬ carrier.Releases) : OnZeros carrier.start := by
  cases carrier with
  | grpc c => exact .grpc c 0
  | xhttp => exact .xhttp
  | naive => exact absurd trivial h

/-- **gRPC and XHTTP return nothing, naive returns everything.** -/
theorem returned_iff (stream connection : Nat) (carrier : Carrier) (events : List Event) :
    (Balanced stream connection carrier events ↔ carrier.Releases ∨ Silent stream connection carrier events) ∧
      (NeverCutOff stream connection carrier ↔ carrier.Releases ∧ 0 < stream ∧ 0 < connection) := by
  by_cases hr : carrier.Releases
  · refine ⟨⟨fun _ => .inl hr, fun _ front _ => (run_keeps carrier front).all hr⟩,
      fun hnever => ⟨hr, hnever [] rfl⟩, fun ⟨_, hs, hc⟩ events hsome => ?_⟩
    obtain ⟨hstream, hconnection⟩ := @run_accounts stream connection carrier events
    have hkeeps := @run_keeps stream connection carrier events
    have hall := (hkeeps.received hsome).trans (hkeeps.all hr).symm
    omega
  · refine ⟨⟨fun hbalanced => .inr ?_, ?_⟩, fun hnever => ?_, fun h => absurd h.1 hr⟩
    · have hzero := hbalanced events (prefix_refl events)
      rw [(run_keeps carrier events).nothing hr] at hzero
      exact flatten_eq_nil_iff.mp (eq_nil_of_length_eq_zero hzero.symm)
    · rintro (h | hsilent) front ⟨later, rfl⟩
      · exact absurd h hr
      · have hfront : (handled (Body.new stream connection carrier) front).flatten = [] := by
          refine flatten_eq_nil_iff.mpr fun chunk hchunk => hsilent chunk ?_
          rw [handled_append]
          exact mem_append_left _ hchunk
        rw [(run_keeps carrier front).nothing hr, hfront]
        rfl
    · -- the smaller of the two windows is used up byte by byte
      obtain ⟨u, -, hrun⟩ := run_zeros (n := 1) (by decide) (min stream connection)
        (b := .new stream connection carrier) rfl (onZeros_start hr) (by simp [Body.new, Window.new])
        (by simp [Body.new, Window.new])
      have hpos := hnever (List.replicate (min stream connection) (.data (List.replicate 1 0) true))
      rw [hrun] at hpos
      have := hpos rfl
      simp only [Body.new, Window.new, Window.receive] at this
      omega

/-! ## Counterexample -/

/-- The windows of the handlers. -/
def oneMiB : Nat := 1048576

def ofConnection : Nat := 65535

def zeros : Bytes := List.replicate 13107 0

/-- Five chunks and a byte. -/
def upload : List Event := List.replicate 5 (.data zeros true) ++ [.data [0] true]

/-- **An upload of 65536 bytes** stalls over XHTTP: its last byte is not sent, and the handler
waits. Over gRPC nothing is released for a hunk of one byte. -/
theorem upload_stalls :
    (run (Body.new oneMiB ofConnection .xhttp) upload).window = ⟨oneMiB - 65535, 0, 65535, 0⟩ ∧
      (run (Body.new oneMiB ofConnection .xhttp) upload).driver.isSome ∧
      handled (Body.new oneMiB ofConnection (.grpc onlyData)) [.data (encodeHunkFrame onlyData [0x61]) true] =
        [encodeHunkFrame onlyData [0x61]] ∧
      (run (Body.new oneMiB ofConnection (.grpc onlyData)) [.data (encodeHunkFrame onlyData [0x61]) true]).window =
        ⟨oneMiB - 8, ofConnection - 8, 8, 0⟩ := by
  obtain ⟨u, -, hrun⟩ := run_zeros (n := 13107) (by decide) 5 (b := .new oneMiB ofConnection .xhttp) rfl .xhttp
    (by decide) (by decide)
  have hupload : run (Body.new oneMiB ofConnection .xhttp) upload = ⟨⟨oneMiB - 65535, 0, 65535, 0⟩, some u⟩ := by
    rw [upload, run_append, zeros, hrun]
    rfl
  rw [hupload]
  exact ⟨rfl, rfl, by decide +kernel, by decide +kernel⟩

end Wrongsv.Bugs.Http2BodyWindow
