import Mathlib.Data.List.Induction
import Wrongsv.L1Encoding.GrpcHunk

/-!
# Flow control of a request body

The windows of an h2 request body, one for its stream and one for its connection: a DATA
chunk takes its length off the client's credit in both, and only `release_capacity` gives
credit back, to both. The bodies are read by `drive_incoming` of the gRPC and of the XHTTP
handler and by `drive_uplink` of the naive handler (server/handler/{grpc,xhttp,naive}.rs).
A client that keeps to the protocol does not send a chunk beyond its credit.

Where a handler passes a chunk on, to the relay's channel or to the target, `taken`
says whether it is taken; a handler returns when it is not.

Results: `step_does`, `run_accounts`, `run_keeps`.
-/
namespace Wrongsv.L2.Http2BodyWindow
open Framing L1.GrpcHunk

/-! ## The windows -/

structure Window where
  /-- what the client may send now, on the stream and on the connection -/
  stream : Nat
  connection : Nat
  received : Nat
  released : Nat
  deriving DecidableEq, Repr

namespace Window

/-- The builders set the window of the stream (grpc.rs:217, xhttp.rs:707, naive.rs:278); that
of the connection is the protocol's 65535. -/
def new (stream connection : Nat) : Window := ⟨stream, connection, 0, 0⟩

/-- A chunk is a frame, of 16384 bytes at most. -/
abbrev Admits (w : Window) (chunk : Bytes) : Prop :=
  chunk.length ≤ 16384 ∧ chunk.length ≤ w.stream ∧ chunk.length ≤ w.connection

def receive (n : Nat) (w : Window) : Window :=
  { w with stream := w.stream - n, connection := w.connection - n, received := w.received + n }

/-- More than is outstanding is an error, and nothing happens. -/
def releaseCapacity (n : Nat) (w : Window) : Window :=
  if w.released + n ≤ w.received then
    { w with stream := w.stream + n, connection := w.connection + n, released := w.released + n }
  else w

end Window

/-! ## The drivers -/

/-- The three handlers. -/
inductive Carrier where
  | grpc (c : HunkCodec)
  | xhttp
  | naive

/-- A handler in its loop; gRPC keeps the part of a frame. -/
inductive Uplink where
  | grpc (c : HunkCodec) (buf : Bytes)
  | xhttp
  | naive

def Carrier.start : Carrier → Uplink
  | .grpc c => .grpc c []
  | .xhttp => .xhttp
  | .naive => .naive

/-- After a chunk the loop goes on, with the capacity that was released if any, or the
handler has returned. -/
inductive Handled where
  | goesOn (u : Uplink) (release : Option Nat)
  | returned

/-- server/handler/grpc.rs:333-340, xhttp.rs:837-841 and naive.rs:407-424 -/
def Uplink.handle (data : Bytes) (taken : Bool) : Uplink → Handled
  | .grpc c buf =>
    match (decoder c).drain (buf ++ data) with
    | (frames, .ok buf) => if frames ≠ [] ∧ taken = false then .returned else .goesOn (.grpc c buf) none
    | (_, .error _) => .returned
  | .xhttp => if taken then .goesOn .xhttp none else .returned
  | .naive => if taken then .goesOn .naive (some data.length) else .returned

/-- A body and its driver, `none` when it has returned. -/
structure Body where
  window : Window
  driver : Option Uplink

def Body.new (stream connection : Nat) (carrier : Carrier) : Body :=
  ⟨.new stream connection, some carrier.start⟩

inductive Event where
  | data (chunk : Bytes) (taken : Bool)
  /-- the end of the body, or a reset -/
  | ends
  deriving DecidableEq, Repr

/-- A chunk beyond the credit is not sent. -/
def step (b : Body) : Event → Body
  | .data chunk taken =>
    match b.driver with
    | none => b
    | some u =>
      if b.window.Admits chunk then
        match u.handle chunk taken with
        | .returned => ⟨b.window.receive chunk.length, none⟩
        | .goesOn u none => ⟨b.window.receive chunk.length, some u⟩
        | .goesOn u (some n) => ⟨(b.window.receive chunk.length).releaseCapacity n, some u⟩
      else b
  | .ends => { b with driver := none }

def run (b : Body) (events : List Event) : Body := events.foldl step b

theorem run_append (b : Body) (front later : List Event) :
    run b (front ++ later) = run (run b front) later :=
  List.foldl_append

/-- What the handler has handled of the event: the chunk, if its loop goes on behind it. -/
def Event.handled (b : Body) : Event → Bytes
  | .data chunk taken =>
    match b.driver with
    | none => []
    | some u =>
      if b.window.Admits chunk then
        match u.handle chunk taken with
        | .returned => []
        | .goesOn _ _ => chunk
      else []
  | .ends => []

/-- The chunks that were handled. -/
def handled (b : Body) : List Event → List Bytes
  | [] => []
  | e :: events => e.handled b :: handled (step b e) events

theorem handled_append (front later : List Event) : ∀ b : Body,
    handled b (front ++ later) = handled b front ++ handled (run b front) later := by
  induction front with
  | nil => exact fun _ => rfl
  | cons e front ih => exact fun b => congrArg (e.handled b :: ·) (ih (step b e))

/-! ## What a step does -/

/-- Whether a handler releases what it has handled. -/
def Uplink.Releases : Uplink → Prop
  | .naive => True
  | _ => False

def Carrier.Releases : Carrier → Prop
  | .naive => True
  | _ => False

theorem handle_goesOn {u u' : Uplink} {chunk : Bytes} {taken : Bool} {release : Option Nat}
    (h : u.handle chunk taken = .goesOn u' release) : (u.Releases ↔ u'.Releases) ∧
    (u.Releases → release = some chunk.length) ∧ (¬ u.Releases → release = none) := by
  cases u with
  | grpc c buf =>
    simp only [Uplink.handle] at h
    split at h
    · split at h
      · cases h
      · cases h
        exact ⟨Iff.rfl, False.elim, fun _ => rfl⟩
    · cases h
  | xhttp =>
    simp only [Uplink.handle] at h
    split at h
    · cases h
      exact ⟨Iff.rfl, False.elim, fun _ => rfl⟩
    · cases h
  | naive =>
    simp only [Uplink.handle] at h
    split at h
    · cases h
      exact ⟨Iff.rfl, fun _ => rfl, fun hno => absurd trivial hno⟩
    · cases h

/-- The effects of the events, with what is handled. -/
inductive Does (b : Body) : Bytes → Body → Prop where
  | nothing : Does b [] b
  | ends : Does b [] { b with driver := none }
  | returns (chunk : Bytes) (fits : b.window.Admits chunk) : Does b [] ⟨b.window.receive chunk.length, none⟩
  | keeps (chunk : Bytes) (fits : b.window.Admits chunk) (u u' : Uplink) (driver : b.driver = some u)
      (same : u.Releases ↔ u'.Releases) (not : ¬ u.Releases) :
      Does b chunk ⟨b.window.receive chunk.length, some u'⟩
  | releases (chunk : Bytes) (fits : b.window.Admits chunk) (u u' : Uplink) (driver : b.driver = some u)
      (same : u.Releases ↔ u'.Releases) (yes : u.Releases) :
      Does b chunk ⟨(b.window.receive chunk.length).releaseCapacity chunk.length, some u'⟩

theorem step_does (b : Body) (e : Event) : Does b (e.handled b) (step b e) := by
  cases e with
  | ends => exact .ends
  | data chunk taken =>
    rw [step, Event.handled]
    cases hdriver : b.driver with
    | none => exact .nothing
    | some u =>
      by_cases hfits : b.window.Admits chunk
      · simp only [if_pos hfits]
        cases hgoes : u.handle chunk taken with
        | returned => exact .returns _ hfits
        | goesOn u' release =>
          obtain ⟨hsame, hyes, hno⟩ := handle_goesOn hgoes
          by_cases hrel : u.Releases
          · rw [hyes hrel]
            exact .releases _ hfits u u' hdriver hsame hrel
          · rw [hno hrel]
            exact .keeps _ hfits u u' hdriver hsame hrel
      · simp only [if_neg hfits]
        exact .nothing

/-! ## Accounts -/

/-- No byte of the windows is lost. -/
structure Window.Accounts (stream connection : Nat) (w : Window) : Prop where
  stream : w.stream + w.received = stream + w.released
  connection : w.connection + w.received = connection + w.released

section
variable {stream connection : Nat}

theorem Window.Accounts.receive {w : Window} (h : w.Accounts stream connection) {chunk : Bytes}
    (hfits : w.Admits chunk) : (w.receive chunk.length).Accounts stream connection := by
  obtain ⟨hstream, hconnection⟩ := h
  obtain ⟨-, hs, hc⟩ := hfits
  constructor
  · simp only [Window.receive]
    omega
  · simp only [Window.receive]
    omega

theorem Window.Accounts.releaseCapacity {w : Window} (h : w.Accounts stream connection) (n : Nat) :
    (w.releaseCapacity n).Accounts stream connection := by
  obtain ⟨hstream, hconnection⟩ := h
  unfold Window.releaseCapacity
  split
  · constructor
    · simp only
      omega
    · simp only
      omega
  · exact ⟨hstream, hconnection⟩

theorem Window.Accounts.does {b b' : Body} {chunk : Bytes} (h : b.window.Accounts stream connection)
    (hdoes : Does b chunk b') : b'.window.Accounts stream connection := by
  cases hdoes with
  | nothing => exact h
  | ends => exact h
  | returns chunk fits => exact h.receive fits
  | keeps chunk fits => exact h.receive fits
  | releases chunk fits => exact (h.receive fits).releaseCapacity _

/-- **A run keeps the accounts.** -/
theorem run_accounts (carrier : Carrier) (events : List Event) :
    (run (Body.new stream connection carrier) events).window.Accounts stream connection := by
  induction events using List.reverseRecOn with
  | nil => exact ⟨rfl, rfl⟩
  | append_singleton events e ih =>
    rw [run_append]
    exact ih.does (step_does _ e)

/-- Of the `total` that was handled, all was released or nothing. -/
structure Body.Keeps (b : Body) (releases : Prop) (total : Nat) : Prop where
  driver : ∀ u, b.driver = some u → (u.Releases ↔ releases)
  received : b.driver.isSome → b.window.received = total
  all : releases → b.window.released = total
  nothing : ¬ releases → b.window.released = 0

theorem Body.Keeps.does {b b' : Body} {releases : Prop} {total : Nat} {chunk : Bytes} (h : b.Keeps releases total)
    (hdoes : Does b chunk b') : b'.Keeps releases (total + chunk.length) := by
  cases hdoes with
  | nothing => exact h
  | ends => exact ⟨fun u hu => (nomatch hu), fun hsome => (nomatch hsome), h.all, h.nothing⟩
  | returns chunk fits => exact ⟨fun u hu => (nomatch hu), fun hsome => (nomatch hsome), h.all, h.nothing⟩
  | keeps chunk fits u u' driver same not =>
    have hno : ¬ releases := fun hr => not ((h.driver u driver).mpr hr)
    refine ⟨fun v hv => ?_, fun _ => ?_, fun hr => absurd hr hno, h.nothing⟩
    · cases hv
      exact same.symm.trans (h.driver u driver)
    · exact congrArg (· + chunk.length) (h.received (by rw [driver]; rfl))
  | releases chunk fits u u' driver same yes =>
    have hr := (h.driver u driver).mp yes
    have hreceived := h.received (by rw [driver]; rfl)
    have hall := h.all hr
    have hroom : (b.window.receive chunk.length).released + chunk.length ≤
        (b.window.receive chunk.length).received := by
      simp only [Window.receive]
      omega
    rw [Window.releaseCapacity, if_pos hroom]
    refine ⟨fun v hv => ?_, fun _ => ?_, fun _ => ?_, fun hno => absurd hr hno⟩
    · cases hv
      exact same.symm.trans (h.driver u driver)
    · exact congrArg (· + chunk.length) hreceived
    · exact congrArg (· + chunk.length) hall

/-- **All or nothing** was released. -/
theorem run_keeps (carrier : Carrier) (events : List Event) :
    (run (Body.new stream connection carrier) events).Keeps carrier.Releases
      (handled (Body.new stream connection carrier) events).flatten.length := by
  induction events using List.reverseRecOn with
  | nil =>
    refine ⟨fun u hu => ?_, fun _ => rfl, fun _ => rfl, fun _ => rfl⟩
    cases hu
    cases carrier <;> exact Iff.rfl
  | append_singleton events e ih =>
    rw [run_append, handled_append, handled, handled, List.flatten_append, List.length_append,
      List.flatten_singleton]
    exact ih.does (step_does _ e)

end

end Wrongsv.L2.Http2BodyWindow
