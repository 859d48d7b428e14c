import Wrongsv.L1Encoding.HttpUpgrade
import Wrongsv.L2Machine.WebSocket.Stream

/-!
# The WebSocket handler up to the stream

`handle_ws_connection` of server/handler/websocket.rs reads the
upgrade request, answers it, and wraps the connection in a `WebSocketStream`
that starts with what was read behind the request. On a raw connection it reads
until the empty line has come; over TLS it reads once, and later reads can be
`WouldBlock`. The response is not part of the model.

A connection is the list of what its reads return; how a client's bytes are
divided into reads is given by the sizes of the reads (`socketReads`).
-/
namespace Wrongsv.L2.WebSocket
open L1.WebSocket L1.HttpUpgrade List

inductive HandlerError where
  /-- "connection closed during HTTP upgrade" -/
  | closed
  /-- "HTTP upgrade header too large" -/
  | tooLarge
  | upgrade (e : UpgradeError)
  deriving DecidableEq, Repr

/-- server/handler/tls.rs:87-119; the buffer, and the reads
that are left -/
def streamReadUpgrade (buf : Bytes) : List Bytes → Except HandlerError (Bytes × List Bytes)
  | [] => .error .closed
  | piece :: pieces =>
    if piece = [] then .error .closed
    else if (splitHead (buf ++ piece)).isSome then .ok (buf ++ piece, pieces)
    else if 16384 ≤ (buf ++ piece).length then .error .tooLarge
    else streamReadUpgrade (buf ++ piece) pieces

/-- One read: `read_tls_plaintext` of tls.rs:56-84. -/
def readTlsPlaintext : List Bytes → Except HandlerError (Bytes × List Bytes)
  | [] => .error .closed
  | piece :: pieces => if piece = [] then .error .closed else .ok (piece, pieces)

inductive Transport where
  | raw
  | tls
  deriving DecidableEq, Repr

def readUpgrade : Transport → List Bytes → Except HandlerError (Bytes × List Bytes)
  | .raw, pieces => streamReadUpgrade [] pieces
  | .tls, pieces => readTlsPlaintext pieces

/-- What is behind the request. A raw socket waits. `AnyTlsStream::read` does not: it returns
`WouldBlock` when the socket has nothing, or nothing that completes a record. `pause` is the
number of bytes in front of the first such read.
anytls/lib.rs:121-159 -/
def innerStream (pause : Option Nat) (bytes : Bytes) : Transport → Schedule
  | .raw => ⟨bytes, []⟩
  | .tls =>
    match pause with
    | none => ⟨bytes, []⟩
    | some n => ⟨bytes.take n, [bytes.drop n]⟩

/-- websocket.rs:380-455 -/
def handleWsConnection (transport : Transport) (path : Text) (host : Option Text)
    (pause : Option Nat) (pieces : List Bytes) : Except HandlerError WebSocketStream :=
  match readUpgrade transport pieces with
  | .error e => .error e
  | .ok (headerBuf, later) =>
    match parseUpgrade headerBuf path host with
    | .error e => .error (.upgrade e)
    | .ok (_, remaining) => .ok (WebSocketStream.new (innerStream pause later.flatten transport) remaining)

/-! ## How the bytes arrive -/

/-- The most bytes each read can return, as many as there are at that moment. -/
structure ReadSizes where
  size : Nat → Nat
  pos : ∀ i, 0 < size i

namespace ReadSizes

variable (r : ReadSizes)

/-- The bytes of the first `n` reads. -/
def total : Nat → Nat
  | 0 => 0
  | n + 1 => total n + r.size n

theorem total_mono {m n : Nat} (h : m ≤ n) : r.total m ≤ r.total n := by
  induction h with
  | refl => exact Nat.le_refl _
  | step _ ih => exact Nat.le_trans ih (Nat.le_add_right _ _)

end ReadSizes

/-- What the reads from number `i` on return, for the bytes `b`. -/
def socketReads.go (r : ReadSizes) : Nat → Nat → Bytes → List Bytes
  | 0, _, _ => []
  | fuel + 1, i, b => if b = [] then [] else b.take (r.size i) :: go r fuel (i + 1) (b.drop (r.size i))

/-- Every read returns a byte. -/
def socketReads (r : ReadSizes) (b : Bytes) : List Bytes := socketReads.go r b.length 0 b

theorem socketReads_flatten (r : ReadSizes) (fuel : Nat) : ∀ (i : Nat) (b : Bytes), b.length ≤
    fuel → (socketReads.go r fuel i b).flatten = b := by
  induction fuel with
  | zero => intro i b h; rw [eq_nil_of_length_eq_zero (Nat.le_zero.mp h)]; rfl
  | succ fuel ih =>
    intro i b h
    rw [socketReads.go]
    split
    · rename_i hb
      rw [hb]
      rfl
    · have := r.pos i
      rw [flatten_cons, ih _ _ (by rw [length_drop]; omega), take_append_drop]

/-! ## Reading the request -/

section
variable {u head t : Bytes} (r : ReadSizes)

/-- Some read completes the request; what it has of the bytes behind it goes
into the same buffer. -/
theorem streamReadUpgrade_eq (hu : splitHead u = some (head, [])) (hmax : u.length ≤ 16384) (k : Nat) :
    ∀ (i fuel : Nat), k = u.length - r.total i → r.total i < u.length → ((u ++ t).drop (r.total i)).length ≤ fuel →
      ∃ m later, r.total m < u.length ∧ u.length ≤ r.total (m + 1) ∧
        later.flatten = t.drop (r.total (m + 1) - u.length) ∧
        streamReadUpgrade ((u ++ t).take (r.total i)) (socketReads.go r fuel i ((u ++ t).drop (r.total i))) =
          .ok (u ++ t.take (r.total (m + 1) - u.length), later) := by
  induction k using Nat.strongRecOn with
  | _ k ih =>
    intro i fuel hk hi hfuel
    have hpos := r.pos i
    have hlen : ((u ++ t).drop (r.total i)).length = u.length + t.length - r.total i := by
      rw [length_drop, length_append]
    have hne : (u ++ t).drop (r.total i) ≠ [] := by
      apply ne_nil_of_length_pos
      omega
    obtain ⟨fuel, rfl⟩ : ∃ n, fuel = n + 1 := ⟨fuel - 1, by omega⟩
    have hpiece : ((u ++ t).drop (r.total i)).take (r.size i) ≠ [] := by
      intro h
      rcases List.take_eq_nil_iff.mp h with h | h
      · omega
      · exact hne h
    have hbuf : (u ++ t).take (r.total i) ++ ((u ++ t).drop (r.total i)).take (r.size i) =
        (u ++ t).take (r.total (i + 1)) := by
      rw [ReadSizes.total, take_add]
    have hdrop : ((u ++ t).drop (r.total i)).drop (r.size i) = (u ++ t).drop (r.total (i + 1)) := by
      rw [drop_drop, ReadSizes.total]
    rw [socketReads.go, if_neg hne, streamReadUpgrade, if_neg hpiece, hbuf, hdrop]
    by_cases hend : u.length ≤ r.total (i + 1)
    · refine ⟨i, socketReads.go r fuel (i + 1) ((u ++ t).drop (r.total (i + 1))), hi, hend, ?_, ?_⟩
      · rw [socketReads_flatten]
        · rw [drop_append, drop_eq_nil_of_le hend, nil_append]
        · rw [← hdrop, length_drop]
          omega
      · have htake : (u ++ t).take (r.total (i + 1)) = u ++ t.take (r.total (i + 1) - u.length) := by
          rw [take_append, take_of_length_le hend]
        rw [htake, splitHead_append hu]
        exact if_pos rfl
    · have hlt := Nat.not_le.mp hend
      have htake : (u ++ t).take (r.total (i + 1)) = u.take (r.total (i + 1)) :=
        take_append_of_le_length (Nat.le_of_lt hlt)
      have hnone := splitHead_take hu hlt
      have hshort : ¬ 16384 ≤ ((u ++ t).take (r.total (i + 1))).length := by
        rw [htake, length_take]
        omega
      rw [if_neg (by rw [htake, hnone]; exact Bool.false_ne_true), if_neg hshort]
      refine ih _ ?_ (i + 1) fuel rfl hlt ?_
      · rw [ReadSizes.total] at hlt ⊢
        omega
      · rw [← hdrop, length_drop]
        omega

end

end Wrongsv.L2.WebSocket
